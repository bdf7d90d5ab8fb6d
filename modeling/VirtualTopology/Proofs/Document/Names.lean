import Mathlib.Data.List.TakeWhile
import VirtualTopology.Document.NameSpace
import VirtualTopology.Proofs.Document.Escaping

/-!
# Names and attributes that are words

A name that is a word has no prefix, so it means itself in every scope without a default name space.
Attributes with such names, each given once and none of them a declaration (`LegibleAttributes`), keep
their names, and declare nothing.
-/

namespace VirtualTopology.Document

/-! ### Names that are words -/

theorem splitAtColon_of_isWord {name : List Char} (h : isWord name = true) :
    splitAtColon name = ([], name) := by
  have hd : name.dropWhile (· != ':') = [] := by
    rw [List.dropWhile_eq_nil_iff]
    intro c hc
    simpa using ne_of_isAlpha (isAlpha_of_isWord h c hc) (by decide)
  simp [splitAtColon, hd]

theorem isWrittenName_of_isWord {name : List Char} (h : isWord name = true) :
    isWrittenName name = true := by
  have hcolon : ':' ∉ name := fun hm => ne_of_isAlpha (isAlpha_of_isWord h _ hm) (by decide) rfl
  have hname : isName name = true := by
    obtain ⟨c, cs, rfl, hc, hcs⟩ := exists_cons_of_isWord h
    simpa [isName, isNameStart_of_isAlpha hc] using fun d hd => isNameChar_of_isAlpha (hcs d hd)
  simp [isWrittenName, splitAtColon_of_isWord h, hname, hcolon]

/-- A word other than the one for declarations declares no prefix. -/
theorem declaredPrefix?_of_isWord {name : List Char} (h : isWord name = true)
    (hne : name ≠ "xmlns".toList) : declaredPrefix? name = none := by
  have hpre : ("xmlns".toList ++ [':']).isPrefixOf name = false := by
    rw [Bool.eq_false_iff]
    intro hp
    have hm : ':' ∈ name := (List.isPrefixOf_iff_prefix.1 hp).subset (by simp)
    exact ne_of_isAlpha (isAlpha_of_isWord h _ hm) (by decide) rfl
  simp only [declaredPrefix?, beq_iff_eq, hne, hpre, if_false, Bool.false_eq_true]

/-- Attributes that declare no prefix leave the scope as it is. -/
theorem declare?_of_forall (scope : Scope) {raw : RawAttributes}
    (h : ∀ a ∈ raw, declaredPrefix? a.1 = none) : declare? scope raw = some scope := by
  induction raw with
  | nil => rfl
  | cons a as ih =>
    obtain ⟨name, value⟩ := a
    have hn : declaredPrefix? name = none := h (name, value) (by simp)
    simpa [declare?, hn] using ih fun a ha => h a (by simp [ha])

theorem elementName?_of_isWord {scope : Scope} {name : List Char} (h : isWord name = true)
    (hs : scope.lookup [] = none) : elementName? scope name = some (String.ofList name) := by
  simp [elementName?, splitAtColon_of_isWord h, hs, expanded]

theorem attributeName?_of_isWord (scope : Scope) {name : List Char} (h : isWord name = true) :
    attributeName? scope name = some (String.ofList name) := by
  simp [attributeName?, splitAtColon_of_isWord h]

theorem distinct_of_nodup {α : Type} [BEq α] [LawfulBEq α] {as : List α} (h : as.Nodup) :
    distinct as = true := by
  induction as with
  | nil => rfl
  | cons a as ih =>
    rw [List.nodup_cons] at h
    simp [distinct, h.1, ih h.2]

/-! ### Attributes -/

/-- Whether attributes come back: their names are words, each given once, and none declares a name
space. -/
structure LegibleAttributes (attributes : List (String × String)) : Prop where
  word : ∀ a ∈ attributes, isWord a.1.toList = true
  ne_xmlns : ∀ a ∈ attributes, a.1 ≠ "xmlns"
  nodup : (attributes.map (·.1)).Nodup

/-- Attributes as they are read back. -/
def flattenAll (attributes : List (String × String)) : List (String × String) :=
  attributes.map fun a => (a.1, flatten a.2)

/-- Attributes as they stand in a start tag. -/
def writtenAttributes (attributes : List (String × String)) : List (List Char × List Char) :=
  attributes.map fun a => (a.1.toList, escape a.2)

/-- The names and the read values of attributes. -/
def rawAttributes (attributes : List (String × String)) : RawAttributes :=
  attributes.map fun a => (a.1.toList, flatten a.2)

namespace LegibleAttributes

variable {attributes : List (String × String)} (h : LegibleAttributes attributes)

include h

theorem declaredPrefix?_eq_none : ∀ a ∈ rawAttributes attributes, declaredPrefix? a.1 = none := by
  intro a ha
  obtain ⟨b, hb, rfl⟩ := List.mem_map.1 ha
  refine declaredPrefix?_of_isWord (h.word b hb) fun he => h.ne_xmlns b hb ?_
  simpa using congrArg String.ofList he

theorem resolve?_eq (scope : Scope) :
    resolve? scope (rawAttributes attributes) = some (flattenAll attributes) := by
  have hkeep : (rawAttributes attributes).filter (fun a => (declaredPrefix? a.1).isNone)
      = rawAttributes attributes := by
    rw [List.filter_eq_self]
    intro a ha
    simp [h.declaredPrefix?_eq_none a ha]
  have hword := h.word
  rw [resolve?, hkeep, rawAttributes, flattenAll]
  clear hkeep
  induction attributes with
  | nil => rfl
  | cons a as ih =>
    have ha := attributeName?_of_isWord scope (h.word a (by simp))
    have htail : LegibleAttributes as :=
      ⟨fun b hb => h.word b (by simp [hb]), fun b hb => h.ne_xmlns b (by simp [hb]),
        (List.nodup_cons.1 h.nodup).2⟩
    simp [ha, ih htail htail.word]

theorem nodup_written : ((writtenAttributes attributes).map (·.1)).Nodup := by
  have hmap : (writtenAttributes attributes).map (·.1)
      = (attributes.map (·.1)).map String.toList := by simp [writtenAttributes]
  rw [hmap]
  exact List.Pairwise.map _ (fun a b hab hne => hab (String.toList_injective hne)) h.nodup

theorem distinct_flattenAll : distinct ((flattenAll attributes).map (·.1)) = true := by
  refine distinct_of_nodup ?_
  have hmap : (flattenAll attributes).map (·.1) = attributes.map (·.1) := by simp [flattenAll]
  rw [hmap]
  exact h.nodup

end LegibleAttributes
end VirtualTopology.Document
