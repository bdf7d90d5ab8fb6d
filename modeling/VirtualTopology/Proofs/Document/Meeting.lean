import Mathlib.Data.List.Forall2
import VirtualTopology.Proofs.Document.Declared
import VirtualTopology.Proofs.Document.Matching

/-!
# What it means that a document meets another one

Whether an element meets another one is computed from tests that its children give rise to. Tags that are words
stand for themselves only, so that for them the outcome can be said in terms of the children with the same tag
(`Element.childrenMet_of_isWord`): children that belong to the declaration meet each other place by place, and each of the
others meets one with its tag.

`Element.Meets` says this of elements that have been written and read back. What one meeting says about the
attributes, the text and the children is collected in the lemmas below it; they do not mention places in the text.
-/

namespace VirtualTopology

open Document

namespace Document

/-- A word is not a name in a name space, so that as a tag it stands for itself only. -/
theorem covers_of_isWord {t : String} (h : isWord t.toList = true) (u : String) : covers t u = (u == t) := by
  obtain ⟨c, cs, ht, hc, -⟩ := exists_cons_of_isWord h
  have hbrace : c ≠ '\x7b' := ne_of_isAlpha hc (by decide)
  unfold covers
  split
  · next name hname =>
    rw [ht] at hname
    exact absurd (List.cons.inj hname).1 hbrace
  · rfl

/-- **Elements meet others in order** if and only if they do so place by place. -/
theorem metInOrder_iff {ds ss : List Element} :
    metInOrder (ds.map Element.isMet) ss = true ↔ List.Forall₂ (fun d s => d.isMet s = true) ds ss := by
  induction ds generalizing ss with
  | nil => cases ss <;> simp [metInOrder]
  | cons d ds ih => cases ss <;> simp [metInOrder, ih]

theorem mem_of_takeOut? {test : Element → Bool} {es rest : List Element} (h : takeOut? test es = some rest) :
    ∃ e, test e = true ∧ es.Perm (e :: rest) := by
  induction es generalizing rest with
  | nil => exact nomatch h
  | cons e es ih =>
    rw [takeOut?] at h
    split at h
    · next htest =>
      obtain rfl := Option.some.inj h
      exact ⟨e, htest, .rfl⟩
    · obtain ⟨rest, hrest, rfl⟩ := Option.map_eq_some_iff.1 h
      obtain ⟨f, htest, hperm⟩ := ih hrest
      exact ⟨f, htest, (hperm.cons e).trans (.swap f e rest)⟩

theorem isSome_takeOut? {test : Element → Bool} {es : List Element} {e : Element} (he : e ∈ es)
    (htest : test e = true) : (takeOut? test es).isSome = true := by
  induction es with
  | nil => exact absurd he (by simp)
  | cons f es ih =>
    rw [takeOut?]
    split
    · rfl
    · next hf =>
      rcases List.mem_cons.1 he with rfl | he
      · exact absurd htest hf
      · rw [Option.isSome_map]
        exact ih he

/-- Each of several elements that meet others anywhere meets one of them. -/
theorem exists_of_metAnywhere {tests : List (Element → Bool)} {es : List Element}
    (h : metAnywhere tests es = true) : ∀ t ∈ tests, ∃ e ∈ es, t e = true := by
  induction tests generalizing es with
  | nil => simp
  | cons t ts ih =>
    rw [metAnywhere] at h
    cases hrest : takeOut? t es with
    | none => simp [hrest] at h
    | some rest =>
      obtain ⟨e, htest, hperm⟩ := mem_of_takeOut? hrest
      rw [hrest] at h
      refine List.forall_mem_cons.2 ⟨⟨e, hperm.mem_iff.2 (by simp), htest⟩, fun u hu => ?_⟩
      obtain ⟨f, hf, htest⟩ := ih h u hu
      exact ⟨f, hperm.mem_iff.2 (by simp [hf]), htest⟩

end Document

namespace Element

theorem isMet_eq (d s : Element) : d.isMet s = (d.tag == s.tag && attributesMet d s && textMet d s &&
    (d.children.map (·.tag) ++ (Ownership.of d.tag).children).all
      (childrenMet d s (d.children.map fun c => (c.tag, c.isMet)))) := by
  obtain ⟨tag, attributes, lead, children⟩ := d
  rw [isMet, childTests_eq_map, List.map_map]
  rfl

/-- **How children with a word for a tag meet others.** -/
theorem childrenMet_of_isWord (d s : Element) {t : String} (ht : isWord t.toList = true) :
    childrenMet d s (d.children.map fun c => (c.tag, c.isMet)) t =
      if (Ownership.of d.tag).children.contains t then
        ((d.all t).isEmpty && isMadeUp d (s.all t)) || metInOrder ((d.all t).map isMet) (s.all t)
      else metAnywhere ((d.all t).map isMet) (s.all t) := by
  have hwanted : ((d.children.map fun c => (c.tag, c.isMet)).filter (covers t ·.1)).map (·.2)
      = (d.all t).map isMet := by
    rw [List.filter_map, List.map_map, all]
    simp only [covers_of_isWord ht, Function.comp_def]
  have hthere : s.children.filter (covers t ·.tag) = s.all t := by
    simp only [covers_of_isWord ht, all]
  simp only [childrenMet, hwanted, hthere, List.isEmpty_map]

/-! ### Meeting after writing and reading back -/

/-- Whether an element meets another one once both have been written and read back. -/
def Meets (d s : Element) : Prop := ∃ i j, (d.readBack i).isMet (s.readBack j) = true

/-- Whether the only child is one that a host has made up: a variable store for firmware that it selects itself. -/
structure MadeUp (d : Element) (children : List Element) : Prop where
  tag_eq : d.tag = "os"
  firmware : (d.attribute? "firmware").isSome = true
  child : ∃ e, children = [e] ∧ e.tag = "nvram" ∧
    (e.children = [] → "_VARS.fd".toList.isSuffixOf (Text.trim e.lead).toList = true)

theorem madeUp_of_readBack {d : Element} {i j : Nat} {children : List Element}
    (h : isMadeUp (d.readBack i) (children.map (readBack j)) = true) : d.MadeUp children := by
  unfold isMadeUp at h
  split at h
  · next child hchild =>
    obtain ⟨e, rfl, rfl⟩ := List.map_eq_singleton_iff.1 hchild
    rw [Bool.and_eq_true, Bool.and_eq_true, Bool.and_eq_true, beq_iff_eq, beq_iff_eq, tag_readBack, tag_readBack,
      attribute?_readBack, Option.isSome_map] at h
    obtain ⟨⟨⟨htag, hfirmware⟩, hnvram⟩, hsuffix⟩ := h
    refine ⟨htag, hfirmware, e, rfl, hnvram, fun he => ?_⟩
    rw [lead_readBack j he] at hsuffix
    exact hsuffix
  · exact nomatch h

namespace Meets

variable {d s : Element} (h : d.Meets s)

include h

/-- An attribute that is declared is there, with what it comes back as or the name of a machine. -/
theorem exists_attribute {name v : String} (hd : d.attribute? name = some v) :
    ∃ w, s.attribute? name = some w ∧
      (flatten v = flatten w ∨ d.tag = "type" ∧ name = "machine" ∧ isMachineOf (flatten v) (flatten w) = true) := by
  obtain ⟨i, j, h⟩ := h
  rw [isMet_eq] at h
  simp only [Bool.and_eq_true, attributesMet, List.all_eq_true, attributes_readBack, tag_readBack,
    attribute?_readBack] at h
  obtain ⟨before, after, hattributes, -⟩ := List.lookup_eq_some_iff.1 hd
  have hmet := h.1.1.2.1 (name, flatten v) (List.mem_map.2 ⟨(name, v), by simp [hattributes], rfl⟩)
  cases hs : s.attribute? name with
  | none => simp [hs, attributeMet] at hmet
  | some w =>
    refine ⟨w, rfl, ?_⟩
    simpa [hs, attributeMet, and_assoc] using hmet

/-- An attribute that belongs to the declaration is not there if it is not declared. -/
theorem attribute?_eq_none {name : String} (hname : name ∈ (Ownership.of d.tag).attributes)
    (hd : d.attribute? name = none) : s.attribute? name = none := by
  obtain ⟨i, j, h⟩ := h
  rw [isMet_eq] at h
  simp only [Bool.and_eq_true, attributesMet, List.all_eq_true, tag_readBack, attribute?_readBack] at h
  simpa [hd] using h.1.1.2.2 name hname

/-- A text that is not blank is the same, blanks around it apart. -/
theorem lead_eq (hd : d.children = []) (hs : s.children = []) (hblank : Text.trim d.lead ≠ "") :
    Text.trim d.lead = Text.trim s.lead := by
  obtain ⟨i, j, h⟩ := h
  rw [isMet_eq] at h
  simp only [Bool.and_eq_true, textMet, lead_readBack i hd, lead_readBack j hs] at h
  simpa [hblank] using h.1.2

/-- **Children that belong to the declaration** meet each other place by place, or a host has made up the only one
that is there. -/
theorem owned {t : String} (ht : isWord t.toList = true) (howned : t ∈ (Ownership.of d.tag).children) :
    List.Forall₂ Meets (d.all t) (s.all t) ∨ d.all t = [] ∧ MadeUp d (s.all t) := by
  obtain ⟨i, j, h⟩ := h
  rw [isMet_eq] at h
  simp only [Bool.and_eq_true, List.all_eq_true, tag_readBack] at h
  have hmet := h.2 t (List.mem_append_right _ howned)
  rw [childrenMet_of_isWord _ _ ht, tag_readBack, if_pos (by simpa using howned), Bool.or_eq_true,
    Bool.and_eq_true] at hmet
  rcases hmet with ⟨hnone, hmade⟩ | hmet
  · rw [all_readBack] at hmade
    exact .inr ⟨by simpa [all_readBack] using hnone, madeUp_of_readBack hmade⟩
  · rw [metInOrder_iff, all_readBack, all_readBack, List.forall₂_map_left_iff, List.forall₂_map_right_iff] at hmet
    exact .inl (hmet.imp fun _ _ hm => ⟨_, _, hm⟩)

/-- Outside the start of a guest nothing is made up, so that children which belong to the declaration meet each other
place by place. -/
theorem forall₂_owned {t : String} (ht : isWord t.toList = true) (howned : t ∈ (Ownership.of d.tag).children)
    (htag : d.tag ≠ "os") : List.Forall₂ Meets (d.all t) (s.all t) := by
  rcases h.owned ht howned with hmet | ⟨-, hmade⟩
  · exact hmet
  · exact absurd hmade.tag_eq htag

/-- **Each child meets one with its tag**, whomever it belongs to. -/
theorem exists_child {c : Element} (hc : c ∈ d.children) (ht : isWord c.tag.toList = true) :
    ∃ e ∈ s.all c.tag, c.Meets e := by
  have hall : c ∈ d.all c.tag := List.mem_filter.2 ⟨hc, by simp⟩
  by_cases howned : c.tag ∈ (Ownership.of d.tag).children
  · rcases h.owned ht howned with hmet | ⟨hnone, -⟩
    · obtain ⟨k, hk, hck⟩ := List.mem_iff_getElem.1 hall
      have hplace := (List.forall₂_iff_get.1 hmet).2 k hk (hmet.length_eq ▸ hk)
      rw [List.get_eq_getElem, hck] at hplace
      exact ⟨_, List.get_mem _ _, hplace⟩
    · exact absurd hall (by simp [hnone])
  · obtain ⟨i, j, h⟩ := h
    rw [isMet_eq] at h
    simp only [Bool.and_eq_true, List.all_eq_true, tag_readBack] at h
    have htag : c.tag ∈ (d.readBack i).children.map (·.tag) := by
      rw [children_readBack, List.map_map]
      exact List.mem_map.2 ⟨c, hc, tag_readBack _ c⟩
    have hmet := h.2 c.tag (List.mem_append_left _ htag)
    rw [childrenMet_of_isWord _ _ ht, tag_readBack, if_neg (by simpa using howned), all_readBack, all_readBack] at hmet
    obtain ⟨f, hf, hcf⟩ := exists_of_metAnywhere hmet _ (List.mem_map_of_mem (List.mem_map_of_mem hall))
    obtain ⟨e, he, rfl⟩ := List.mem_map.1 hf
    exact ⟨e, he, _, _, hcf⟩

/-- The only child with a tag meets the only one with the tag. -/
theorem child {t : String} (ht : isWord t.toList = true) {c e : Element} (hc : d.all t = [c]) (he : s.all t = [e]) :
    c.Meets e := by
  have hmem : c ∈ d.all t := by simp [hc]
  obtain ⟨hchild, htag⟩ := List.mem_filter.1 hmem
  obtain rfl : c.tag = t := by simpa using htag
  obtain ⟨f, hf, hmeets⟩ := h.exists_child hchild ht
  obtain rfl : f = e := by simpa [he] using hf
  exact hmeets

end Meets

end Element

/-- Legible documents that match are of elements that meet. -/
theorem Element.Legible.meets_of_documentsMatch {d s : Element} (hd : d.Legible) (hs : s.Legible)
    (h : documentsMatch d.print s.print = true) : d.Meets s := by
  rw [documentsMatch, hd.read?_print, hs.read?_print] at h
  exact ⟨0, 0, h⟩

end VirtualTopology
