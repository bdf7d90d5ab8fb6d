import VirtualTopology.Document.Printer
import VirtualTopology.Document.Value

/-!
# Escaped text and attribute values

What `Document.escape` writes is read back by the two readers of references: the one for character
data and the one for the values of attributes (`Value.attributeValue?_escape`). In the value of an
attribute white space comes back as spaces (`flatten`), and nothing else changes.

The names that are written are words of letters only (`isWord`). A letter has no meaning in markup,
so that the readers of names and of references go through a word without a decision.
-/

namespace VirtualTopology

/-- What is said of all characters of a list is decided by looking at the list, not at all characters. -/
instance decidableForallMem (cs : List Char) (p : Char → Prop) [DecidablePred p] :
    Decidable (∀ c ∈ cs, p c) :=
  List.decidableBAll p cs

namespace Document

/-! ### Words -/

/-- Whether characters are a word of letters. -/
def isWord (cs : List Char) : Bool := !cs.isEmpty && cs.all Char.isAlpha

theorem toNat_of_isAlpha {c : Char} (h : c.isAlpha = true) :
    (65 ≤ c.toNat ∧ c.toNat ≤ 90) ∨ (97 ≤ c.toNat ∧ c.toNat ≤ 122) := by
  have hcases : (decide (c.val ≥ 'A'.val ∧ c.val ≤ 'Z'.val) ||
      (decide (c.val ≥ 'a'.val) && decide (c.val ≤ 'z'.val))) = true := h
  simp only [Bool.or_eq_true, Bool.and_eq_true, decide_eq_true_eq, ge_iff_le,
    UInt32.le_iff_toNat_le] at hcases
  exact hcases

theorem isNameStart_of_isAlpha {c : Char} (h : c.isAlpha = true) : isNameStart c = true := by
  have hn := toNat_of_isAlpha h
  have hlt : c.toNat < 128 := by omega
  simp [isNameStart, hlt, hn]

theorem isNameChar_of_isAlpha {c : Char} (h : c.isAlpha = true) : isNameChar c = true := by
  have hn := toNat_of_isAlpha h
  have hlt : c.toNat < 128 := by omega
  simp only [isNameChar, hlt, ↓reduceIte, Bool.or_eq_true, Bool.and_eq_true, decide_eq_true_eq]
  omega

theorem isAllowed_of_isAlpha {c : Char} (h : c.isAlpha = true) : isAllowed c = true := by
  have hn := toNat_of_isAlpha h
  simp only [isAllowed, Bool.or_eq_true, Bool.and_eq_true, beq_iff_eq, decide_eq_true_eq]
  omega

/-- A letter is none of the characters that have a meaning in markup. -/
theorem ne_of_isAlpha {c d : Char} (h : c.isAlpha = true) (hd : d.isAlpha = false) : c ≠ d := by
  rintro rfl
  exact absurd h (by simp [hd])

theorem exists_cons_of_isWord {cs : List Char} (h : isWord cs = true) :
    ∃ c ds, cs = c :: ds ∧ c.isAlpha = true ∧ ∀ d ∈ ds, d.isAlpha = true := by
  cases cs with
  | nil => exact absurd h (by simp [isWord])
  | cons c ds => exact ⟨c, ds, rfl, by simpa [isWord] using h⟩

theorem isAlpha_of_isWord {cs : List Char} (h : isWord cs = true) : ∀ c ∈ cs, c.isAlpha = true := by
  obtain ⟨c, ds, rfl, hc, hds⟩ := exists_cons_of_isWord h
  simpa [hc] using hds

/-! ### What is written for a character -/

/-- A character is written as a reference to the entity with a word for a name, or as itself if it has
no meaning in markup. -/
theorem escapeChar_cases (c : Char) :
    (∃ name, escapeChar c = '&' :: (name ++ [';']) ∧ isWord name = true ∧
      knownEntity? (String.ofList name) = some c ∧ isWhite c = false) ∨
    (escapeChar c = [c] ∧ c ≠ '&' ∧ c ≠ '<' ∧ c ≠ '>' ∧ c ≠ '"') := by
  unfold escapeChar
  split
  · exact .inl ⟨['a', 'm', 'p'], by decide, by decide, by decide, by decide⟩
  · exact .inl ⟨['l', 't'], by decide, by decide, by decide, by decide⟩
  · exact .inl ⟨['g', 't'], by decide, by decide, by decide, by decide⟩
  · exact .inl ⟨['q', 'u', 'o', 't'], by decide, by decide, by decide, by decide⟩
  · exact .inr ⟨rfl, by assumption, by assumption, by assumption, by assumption⟩

/-- The characters that are written for one: itself, letters, an ampersand and a semicolon. -/
theorem mem_escapeChar {c d : Char} (h : d ∈ escapeChar c) :
    d = '&' ∨ d = ';' ∨ d.isAlpha = true ∨ (d = c ∧ c ≠ '<' ∧ c ≠ '"') := by
  rcases escapeChar_cases c with ⟨name, he, hn, -, -⟩ | ⟨he, -, hlt, -, hq⟩
  · rw [he] at h
    rcases List.mem_cons.1 h with rfl | h
    · exact .inl rfl
    · rcases List.mem_append.1 h with h | h
      · exact .inr (.inr (.inl (isAlpha_of_isWord hn d h)))
      · exact .inr (.inl (by simpa using h))
  · rw [he] at h
    obtain rfl : d = c := by simpa using h
    exact .inr (.inr (.inr ⟨rfl, hlt, hq⟩))

/-- The characters of an escaped text. -/
theorem mem_escape {s : String} {d : Char} (h : d ∈ escape s) :
    d = '&' ∨ d = ';' ∨ d.isAlpha = true ∨ (d ∈ s.toList ∧ d ≠ '<' ∧ d ≠ '"') := by
  obtain ⟨c, hc, hd⟩ := List.mem_flatMap.1 h
  rcases mem_escapeChar hd with h | h | h | ⟨rfl, hlt, hq⟩
  · exact .inl h
  · exact .inr (.inl h)
  · exact .inr (.inr (.inl h))
  · exact .inr (.inr (.inr ⟨hc, hlt, hq⟩))

/-- An escaped text opens no markup. -/
theorem ne_lt_of_mem_escape {s : String} {d : Char} (h : d ∈ escape s) : d ≠ '<' := by
  rcases mem_escape h with rfl | rfl | h | ⟨-, h, -⟩
  · decide
  · decide
  · exact ne_of_isAlpha h (by decide)
  · exact h

/-- An escaped text closes no value. -/
theorem ne_quote_of_mem_escape {s : String} {d : Char} (h : d ∈ escape s) : d ≠ '"' := by
  rcases mem_escape h with rfl | rfl | h | ⟨-, -, h⟩
  · decide
  · decide
  · exact ne_of_isAlpha h (by decide)
  · exact h

/-- What holds of the characters of a text, of letters, and of the two marks of a reference, holds of the
escaped text. -/
theorem all_escape {p : Char → Prop} {s : String} (hs : ∀ c ∈ s.toList, p c)
    (halpha : ∀ c, c.isAlpha = true → p c) (hamp : p '&') (hsemi : p ';') : ∀ c ∈ escape s, p c := by
  intro d hd
  rcases mem_escape hd with rfl | rfl | h | ⟨h, -, -⟩
  · exact hamp
  · exact hsemi
  · exact halpha d h
  · exact hs d h

/-! ### Attribute values -/

/-- A character as it comes back from the value of an attribute. -/
def flattenChar (c : Char) : Char := if isWhite c then ' ' else c

/-- A text as it comes back from the value of an attribute: white space is spaces. -/
def flatten (s : String) : String := String.ofList (s.toList.map flattenChar)

/-- A text without line breaks and tabs comes back as it is. -/
theorem flatten_eq_self {s : String} (h : ∀ c ∈ s.toList, isWhite c = true → c = ' ') :
    flatten s = s := by
  have hmap : s.toList.map flattenChar = s.toList := by
    rw [List.map_congr_left (g := id) fun c hc => ?_, List.map_id]
    unfold flattenChar
    split
    · next hw => exact (h c hc hw).symm
    · rfl
  rw [flatten, hmap, String.ofList_toList]

namespace Value

section

variable (plain : Char → Option Char) (refer : Value → Referent → Option Value)

theorem foldlM_letters (v : Value) (soFar : List Char) {cs : List Char}
    (h : ∀ c ∈ cs, c.isAlpha = true) (hs : soFar ≠ []) :
    cs.foldlM (stepWith plain refer) { v with reference := some soFar } =
      some { v with reference := some (cs.reverse ++ soFar) } := by
  induction cs generalizing soFar with
  | nil => rfl
  | cons c cs ih =>
    have hc : c.isAlpha = true := h c (by simp)
    have hsemi : c ≠ ';' := ne_of_isAlpha hc (by decide)
    have hstep : stepWith plain refer { v with reference := some soFar } c
        = some { v with reference := some (c :: soFar) } := by
      simp [stepWith, hsemi, continuesReference, hs, isNameChar_of_isAlpha hc]
    rw [List.foldlM_cons, hstep]
    simpa using ih (c :: soFar) (fun d hd => h d (by simp [hd])) (by simp)

end

end Value

/-- A word between an ampersand and a semicolon names an entity. -/
theorem Referent.ofName?_of_isWord {name : List Char} (h : isWord name = true) :
    Referent.ofName? name = some (.entity (String.ofList name)) := by
  obtain ⟨c, cs, rfl, hc, -⟩ := exists_cons_of_isWord h
  have hhash : c ≠ '#' := ne_of_isAlpha hc (by decide)
  unfold Referent.ofName?
  split
  · simp_all
  · simp_all
  · rfl

namespace Value

/-- A reference to an entity with a word for a name. -/
theorem foldlM_reference (plain : Char → Option Char) (refer : Value → Referent → Option Value)
    {v : Value} (hv : v.reference = none) {name : List Char} (h : isWord name = true) :
    ('&' :: (name ++ [';'])).foldlM (stepWith plain refer) v =
      refer v (.entity (String.ofList name)) := by
  have hname := Referent.ofName?_of_isWord h
  obtain ⟨c, cs, rfl, hc, hcs⟩ := exists_cons_of_isWord h
  have hamp : stepWith plain refer v '&' = some { v with reference := some [] } := by
    simp [stepWith, hv]
  have hsemi : c ≠ ';' := ne_of_isAlpha hc (by decide)
  have hstart : stepWith plain refer { v with reference := some [] } c
      = some { v with reference := some [c] } := by
    simp [stepWith, hsemi, continuesReference, isNameStart_of_isAlpha hc]
  have hend : stepWith plain refer { v with reference := some (cs.reverse ++ [c]) } ';'
      = refer v (.entity (String.ofList (c :: cs))) := by
    have hself : ({ v with reference := none } : Value) = v := by rw [← hv]
    simp [stepWith, hname, hself]
  rw [List.foldlM_cons, hamp]
  simp only [List.cons_append, List.foldlM_cons, List.foldlM_append, Option.bind_eq_bind,
    Option.bind_some, hstart]
  rw [foldlM_letters plain refer v [c] hcs (by simp)]
  simp [hend]

/-- The value of an attribute takes in a character, however it is written. -/
theorem foldlM_escapeChar (es : Entities) (expand : Value → List Char → Option Value) {v : Value}
    (hv : v.reference = none) (c : Char) :
    (escapeChar c).foldlM (stepWith attributeChar? (attributeReference es expand)) v =
      some (v.append [flattenChar c]) := by
  rcases escapeChar_cases c with ⟨name, he, hn, hk, hw⟩ | ⟨he, hamp, hlt, -, -⟩
  · rw [he, foldlM_reference _ _ hv hn]
    simp [attributeReference, hk, flattenChar, hw]
  · rw [he]
    have hplain : attributeChar? c = some (flattenChar c) := by
      simp [attributeChar?, hlt, flattenChar]
    simp [stepWith, hv, hamp, hplain]

theorem foldlM_escape (es : Entities) (expand : Value → List Char → Option Value) (cs : List Char)
    {v : Value} (hv : v.reference = none) :
    (cs.flatMap escapeChar).foldlM (stepWith attributeChar? (attributeReference es expand)) v =
      some (v.append (cs.map flattenChar)) := by
  induction cs generalizing v with
  | nil => simp [append]
  | cons c cs ih =>
    have happ : (v.append [flattenChar c]).reference = none := hv
    rw [List.flatMap_cons, List.foldlM_append, foldlM_escapeChar es expand hv, Option.bind_eq_bind,
      Option.bind_some, ih happ]
    simp [append]

/-- **An escaped value is read back**, with white space as spaces, and no room is used up. -/
theorem attributeValue?_escape (es : Entities) (depth room : Nat) (s : String) :
    attributeValue? es depth true room (escape s) = some (flatten s, room) := by
  have hstep : ∃ expand, attributeStep es depth =
      stepWith attributeChar? (attributeReference es expand) := by
    cases depth with
    | zero => exact ⟨_, rfl⟩
    | succ depth => exact ⟨_, rfl⟩
  obtain ⟨expand, hstep⟩ := hstep
  have hrun := foldlM_escape es expand s.toList (v := { room }) rfl
  simp [attributeValue?, runWith, hstep, escape, hrun, append, flatten]

end Value

end Document

end VirtualTopology
