import Mathlib.Data.Nat.Digits.Lemmas
import VirtualTopology.Proofs.Text.Grouping
import VirtualTopology.Topology.Quantity

/-!
# Sizes written as texts

A size that is written as a text is a count and a unit. The texts that are read are those of a small grammar and no
others: blanks, one or more decimal digits of any script, blanks, the word for a unit or nothing, blanks
(`Quantity.Spells`). The count is the value of the digits, and without a unit it counts bytes (`Quantity.reads_shorthand`).
There is a limit to the digits of a number, and a size is read back from its own text exactly if its count keeps to it.

The reader cuts a text into runs of blanks, digits and letters, each as long as it can be. No character belongs to two of
these classes, so a text that is divided in the way of the grammar is cut in that way (`Quantity.shorthand?_eq_some_iff`).
-/

namespace VirtualTopology

open Text

variable {c : Char} {cs digits letters : List Char} {ds : List Nat}

/-! ### Three classes of characters -/

namespace Text

theorem isDigit_of_digit? {d : Nat} (h : digit? c = some d) : isDigit c = true := by rw [isDigit, h]; rfl

theorem not_isDigit_of_isBlank (h : isBlank c = true) : isDigit c = false := by
  rw [isBlank, Bool.or_eq_true] at h
  rcases h with hspace | hseparator
  · have hnone : asciiDigit? c = none := asciiDigit?_eq_none_iff.2 (isDigit_of_isSpace hspace)
    rw [isDigit, digit?_of_not_isForeign (isForeign_of_isSpace hspace), hnone]
    rfl
  · simp only [Bool.and_eq_true, decide_eq_true_eq] at hseparator
    rw [isDigit, digit?, if_pos (by omega), asciiDigit?, if_neg (by omega)]
    rfl

theorem not_isBlank_of_isDigit (h : isDigit c = true) : isBlank c = false := by
  rw [← Bool.not_eq_true]
  intro hblank
  exact Bool.false_ne_true ((not_isDigit_of_isBlank hblank).symm.trans h)

theorem dropWhile_append_of_head {p : Char → Bool} {xs ys : List Char} (hne : xs ≠ []) (h : ∀ c ∈ xs, p c = false) :
    (xs ++ ys).dropWhile p = xs ++ ys := by
  cases xs with
  | nil => exact absurd rfl hne
  | cons x xs => simp [h x List.mem_cons_self]

theorem takeWhile_eq_nil_of_head {p : Char → Bool} (h : ∀ c ∈ cs, p c = false) : cs.takeWhile p = [] := by
  cases cs with
  | nil => rfl
  | cons c cs => simp [h c List.mem_cons_self]

/-- The number that digits denote, least significant first. -/
theorem ofDigits_eq (ds : List Nat) : ofDigits ds = Nat.ofDigits 10 ds.reverse := by
  rw [Nat.ofDigits_eq_foldr, List.foldr_reverse, ofDigits]
  congr 1
  funext n d
  simp [Nat.add_comm]

theorem map_digit?_of_isDigit (h : ∀ c ∈ cs, isDigit c = true) : cs.map digit? = (cs.filterMap digit?).map some := by
  induction cs with
  | nil => rfl
  | cons c cs ih =>
    rw [List.forall_mem_cons] at h
    obtain ⟨d, hd⟩ := Option.isSome_iff_exists.1 h.1
    rw [List.map_cons, ih h.2, List.filterMap_cons_some hd, List.map_cons, hd]

/-- Characters that stand for some digits are digits, and their values are these. -/
theorem digits_of_map_digit? (h : digits.map digit? = ds.map some) :
    (∀ c ∈ digits, isDigit c = true) ∧ digits.filterMap digit? = ds ∧ ∀ d ∈ ds, d < 10 := by
  refine ⟨fun c hc => ?_, ?_, fun d hd => ?_⟩
  · obtain ⟨d, -, hd⟩ := List.mem_map.1 (h ▸ List.mem_map_of_mem (f := digit?) hc)
    exact isDigit_of_digit? hd.symm
  · calc digits.filterMap digit?
      _ = (digits.map digit?).filterMap id := by rw [List.filterMap_map]; rfl
      _ = ds := by rw [h, List.filterMap_map]; simp
  · obtain ⟨c, -, hc⟩ := List.mem_map.1 (h.symm ▸ List.mem_map_of_mem (f := some) hd)
    exact digit?_lt hc

end Text

namespace Quantity

theorem not_isDigit_of_isLetter (h : isLetter c = true) : isDigit c = false := by
  simp only [isLetter, Bool.or_eq_true, Bool.and_eq_true, decide_eq_true_eq] at h
  rw [isDigit, digit?, if_pos (by omega), asciiDigit?, if_neg (by omega)]
  rfl

theorem not_isBlank_of_isLetter (h : isLetter c = true) : isBlank c = false := by
  simp only [isLetter, Bool.or_eq_true, Bool.and_eq_true, decide_eq_true_eq] at h
  simp only [isBlank, isSpace, Bool.or_eq_false_iff, Bool.and_eq_false_iff, decide_eq_false_iff_not, beq_eq_false_iff_ne]
  omega

/-! ### Runs -/

/-- Whether a text consists of blanks, one or more digits, blanks, some letters and blanks. -/
def Consists (cs : List Char) (ds : List Nat) (letters : List Char) : Prop :=
  ∃ before digits between behind, cs = before ++ (digits ++ (between ++ (letters ++ behind))) ∧
    digits.map digit? = ds.map some ∧ ds ≠ [] ∧ ∀ c ∈ before ++ between ++ behind, isBlank c = true

/-- Letters that blanks may follow are taken as they are, and the blanks go with those in front. -/
theorem letters_behind {between behind : List Char} (hletters : ∀ c ∈ letters, isLetter c = true)
    (hbetween : ∀ c ∈ between, isBlank c = true) (hbehind : ∀ c ∈ behind, isBlank c = true) :
    let rest := (between ++ (letters ++ behind)).dropWhile isBlank
    rest.takeWhile isLetter = letters ∧ (rest.dropWhile isLetter).dropWhile isBlank = [] := by
  intro rest
  have hgone : behind.dropWhile isBlank = [] := List.dropWhile_eq_nil_iff.2 hbehind
  have hother : ∀ c ∈ behind, isLetter c = false := fun c hc => by
    rw [← Bool.not_eq_true]
    exact fun hletter => Bool.false_ne_true ((not_isBlank_of_isLetter hletter).symm.trans (hbehind c hc))
  have hrest : rest = (letters ++ behind).dropWhile isBlank := List.dropWhile_append_of_pos hbetween
  cases letters with
  | nil =>
    -- without letters the blanks in front and those behind are one run
    have hnil : rest = [] := hrest.trans hgone
    rw [hnil]
    exact ⟨rfl, rfl⟩
  | cons l ls =>
    have hkeep : rest = l :: ls ++ behind := hrest.trans
      (dropWhile_append_of_head (List.cons_ne_nil _ _) fun c hc => not_isBlank_of_isLetter (hletters c hc))
    rw [hkeep, List.takeWhile_append_of_pos hletters, List.dropWhile_append_of_pos hletters,
      takeWhile_eq_nil_of_head hother, List.append_nil, dropWhile_eq_self_of_head hother]
    exact ⟨rfl, hgone⟩

/-- **A text is cut into its runs**, in whatever way it was put together. -/
theorem shorthand?_eq_some_iff :
    shorthand? cs = some (ds, letters) ↔ (∀ c ∈ letters, isLetter c = true) ∧ Consists cs ds letters := by
  unfold shorthand?
  dsimp only
  constructor
  · intro h
    split at h
    · exact nomatch h
    · next hfound =>
      obtain ⟨rfl, rfl⟩ := Prod.mk.inj (Option.some.inj h)
      simp only [Bool.or_eq_true, List.isEmpty_iff, Bool.not_eq_true', List.isEmpty_eq_false_iff, not_or, not_not] at hfound
      obtain ⟨hdigits, hrest⟩ := hfound
      -- the parts are the runs that were taken, one from what the one before it left
      generalize hcs₁ : cs.dropWhile isBlank = cs₁ at *
      generalize hcs₂ : cs₁.dropWhile isDigit = cs₂ at *
      generalize hcs₃ : cs₂.dropWhile isBlank = cs₃ at *
      refine ⟨fun c hc => List.mem_takeWhile_imp hc, cs.takeWhile isBlank, cs₁.takeWhile isDigit, cs₂.takeWhile isBlank,
        cs₃.dropWhile isLetter, ?_, map_digit?_of_isDigit fun c hc => List.mem_takeWhile_imp hc, hdigits, ?_⟩
      · rw [List.takeWhile_append_dropWhile, ← hcs₃, List.takeWhile_append_dropWhile, ← hcs₂,
          List.takeWhile_append_dropWhile, ← hcs₁, List.takeWhile_append_dropWhile]
      · simp only [List.forall_mem_append]
        exact ⟨⟨fun c hc => List.mem_takeWhile_imp hc, fun c hc => List.mem_takeWhile_imp hc⟩,
          List.dropWhile_eq_nil_iff.1 hrest⟩
  · rintro ⟨hletters, before, digits, between, behind, rfl, hmap, hne, hblanks⟩
    simp only [List.forall_mem_append] at hblanks
    obtain ⟨⟨hbefore, hbetween⟩, hbehind⟩ := hblanks
    obtain ⟨hdigits, hvalues, -⟩ := digits_of_map_digit? hmap
    have hsome : digits ≠ [] := by
      rintro rfl
      exact hne hvalues.symm
    -- each run ends where it should, since nothing behind it is of its class
    have hnone : ∀ c ∈ between ++ (letters ++ behind), isDigit c = false := by
      simp only [List.forall_mem_append]
      exact ⟨fun c hc => not_isDigit_of_isBlank (hbetween c hc), fun c hc => not_isDigit_of_isLetter (hletters c hc),
        fun c hc => not_isDigit_of_isBlank (hbehind c hc)⟩
    obtain ⟨hleft, hgone⟩ := letters_behind hletters hbetween hbehind
    rw [List.dropWhile_append_of_pos hbefore,
      dropWhile_append_of_head hsome fun c hc => not_isBlank_of_isDigit (hdigits c hc),
      List.takeWhile_append_of_pos hdigits, List.dropWhile_append_of_pos hdigits, takeWhile_eq_nil_of_head hnone,
      List.append_nil, hvalues, dropWhile_eq_self_of_head hnone, hleft, hgone, if_neg]
    simp [hne]

end Quantity

/-! ### Units -/

namespace SizeUnit

variable {u : SizeUnit}

theorem ofWord?_eq_some_iff {w : String} : ofWord? w = some u ↔ w = u.word := by
  constructor
  · intro h
    rw [ofWord?] at h
    have hword := List.find?_some h
    exact (beq_iff_eq.1 hword).symm
  · rintro rfl
    cases u <;> rfl

theorem word_isLetter (u : SizeUnit) : ∀ c ∈ u.word.toList, Quantity.isLetter c = true := by cases u <;> decide

theorem word_ne_nil (u : SizeUnit) : u.word.toList ≠ [] := by cases u <;> decide

end SizeUnit

namespace Quantity

variable {s : String} {q : Quantity} {u : SizeUnit}

/-- The letters of a unit, none if there is none. -/
def lettersOf (unit : Option SizeUnit) : List Char := unit.elim [] (·.word.toList)

theorem lettersOf_isLetter (unit : Option SizeUnit) : ∀ c ∈ lettersOf unit, isLetter c = true := by
  cases unit with
  | none => exact nofun
  | some u => exact u.word_isLetter

/-- Letters name a unit if they are its word, or none at all for bytes. -/
theorem unit?_eq_some_iff :
    (if letters.isEmpty then some .bytes else SizeUnit.ofWord? (String.ofList letters)) = some u ↔
      ∃ unit, letters = lettersOf unit ∧ u = unit.getD .bytes := by
  constructor
  · intro h
    split at h
    · next hempty => exact ⟨none, List.isEmpty_iff.1 hempty, (Option.some.inj h).symm⟩
    · refine ⟨some u, ?_, rfl⟩
      rw [lettersOf, Option.elim_some, ← SizeUnit.ofWord?_eq_some_iff.1 h, String.toList_ofList]
  · rintro ⟨unit, rfl, rfl⟩
    cases unit with
    | none => rfl
    | some u =>
      have hletters : (lettersOf (some u)).isEmpty = false := List.isEmpty_eq_false_iff.2 u.word_ne_nil
      rw [hletters, if_neg Bool.false_ne_true, SizeUnit.ofWord?_eq_some_iff]
      exact String.ofList_toList

/-! ### Sizes -/

/-- **Whether a text spells digits and a unit**: blanks, one or more digits, blanks, the word for the unit or nothing,
blanks. -/
def Spells (s : String) (ds : List Nat) (unit : Option SizeUnit) : Prop := Consists s.toList ds (lettersOf unit)

theorem ofText_eq_valid_iff : ofText s = .valid q ↔
    ∃ ds unit, Spells s ds unit ∧ ds.length ≤ digitLimit ∧ q = ⟨ofDigits ds, unit.getD .bytes⟩ := by
  unfold ofText
  constructor
  · intro h
    split at h
    · exact nomatch h
    · next ds letters hshorthand =>
      split at h
      · exact nomatch h
      · next hshort =>
        dsimp only at h
        split at h
        · next u hunit =>
          obtain ⟨unit, rfl, rfl⟩ := unit?_eq_some_iff.1 hunit
          exact ⟨ds, unit, (shorthand?_eq_some_iff.1 hshorthand).2, Nat.not_lt.1 hshort, (Checked.valid.inj h).symm⟩
        · exact nomatch h
  · rintro ⟨ds, unit, hspells, hshort, rfl⟩
    rw [shorthand?_eq_some_iff.2 ⟨lettersOf_isLetter unit, hspells⟩]
    dsimp only
    rw [if_neg (Nat.not_lt.2 hshort), unit?_eq_some_iff.2 ⟨unit, rfl, rfl⟩]

/-- The text of a size spells its count and its unit. -/
theorem spells_text (q : Quantity) : Spells q.text ((Nat.toDigits 10 q.count).map fun c => c.toNat - 48) (some q.unit) := by
  have hdigits : ∀ c ∈ Nat.toDigits 10 q.count, c.isDigit = true := fun c hc =>
    Nat.isDigit_of_mem_toDigits (by decide) (by decide) hc
  refine ⟨[], Nat.toDigits 10 q.count, [' '], [], ?_, ?_, ?_, by decide⟩
  · rw [text, String.toList_append, String.toList_append, Nat.toString_eq_repr, Nat.toList_repr, List.append_nil]
    exact List.append_assoc _ _ _
  · rw [List.map_map]
    exact List.map_congr_left fun c hc => digit?_of_isDigit (hdigits c hc)
  · simp [Nat.toDigits_ne_nil]

theorem isWritable_of_spells {unit : Option SizeUnit} (h : Spells s ds unit) (hshort : ds.length ≤ digitLimit) :
    isWritable (ofDigits ds) = true := by
  obtain ⟨_, digits, _, _, -, hmap, -, -⟩ := h
  have hlt : ofDigits ds < 10 ^ ds.length := by
    rw [ofDigits_eq, ← List.length_reverse]
    exact Nat.ofDigits_lt_base_pow_length (by decide) fun d hd => (digits_of_map_digit? hmap).2.2 d (List.mem_reverse.1 hd)
  rw [isWritable, Int.natAbs_natCast, decide_eq_true_eq]
  -- the limit itself does not matter, and its power is not to be worked out
  generalize digitLimit = limit at hshort ⊢
  exact Nat.lt_of_lt_of_le hlt (Nat.pow_le_pow_right (by decide) hshort)

/-- **The texts that are read as sizes** are those that spell digits and a unit, with no more digits than a number may have;
the count is the value of the digits, and the unit is bytes if there is none. The text of a size is one of them exactly if
its count can be written, and is read as that size. -/
theorem reads_shorthand (s : String) (q : Quantity) :
    (reading (.text s) = .valid q ↔ ∃ ds unit, Spells s ds unit ∧ ds.length ≤ digitLimit ∧
      q = ⟨Nat.ofDigits 10 ds.reverse, unit.getD .bytes⟩) ∧
    (reading (.text q.text) = .valid q ↔ isWritable q.count = true) := by
  have hreading (s : String) : reading (.text s) = ofText s := rfl
  rw [hreading, hreading]
  refine ⟨?_, fun h => ?_, fun h => ?_⟩
  · simp only [ofText_eq_valid_iff, ofDigits_eq]
  · obtain ⟨ds, unit, hspells, hshort, rfl⟩ := ofText_eq_valid_iff.1 h
    exact isWritable_of_spells hspells hshort
  · refine ofText_eq_valid_iff.2 ⟨_, _, q.spells_text, ?_, ?_⟩
    · rw [List.length_map]
      exact isWritable_iff_length.1 h
    · rw [ofDigits_toDigits]
      rfl

/-- Digits of another script, a wide space, and a line end. -/
example : reading (.text "\u3000٦٠GiB\n") = .valid ⟨60, .GiB⟩ := by rfl

end Quantity

end VirtualTopology
