import VirtualTopology.Proofs.Text.Decimals
import VirtualTopology.Proofs.Text.Integers
import VirtualTopology.Proofs.Topology.Validation

/-!
# Written values

A value may be written as a text, in data or by itself. In data truth values have several words, of which `true` is the one
that is known by itself (`Text.boolWord?_of_lower`).

Where the bounds of an integer let only positive ones in, and those of a number only finite ones, a text is read in both ways
or in neither, but for a few forms (`Reading.integerIn_text_iff`, `Reading.numberIn_text_iff`).
-/

namespace VirtualTopology

open Text

/-! ### Truth values -/

namespace Text

variable {s : String}

theorem boolWord?_of_lower (h : lower s = "true") : Reading.boolWord? s = some true := by
  have hword : lowerFrom [] s.toList = ['t', 'r', 'u', 'e'] := String.ofList_injective h
  -- all its small letters are in ASCII
  have hsmall : ∀ l ∈ lowerFrom [] s.toList, l.toNat < 128 ∧ l ≠ 'k' := by
    rw [hword]
    decide
  have hmap : lowerFrom [] s.toList = s.toList.map Char.toLower := lowerFrom_of_ascii (ascii_of_lowerFrom hsmall)
  unfold Reading.boolWord?
  rw [← hmap, hword]
  rfl

end Text

namespace Reading

open Checked

variable {α : Type} {s : String} {a : α} {low high i : Int} {b : Bool} {least most x : Binary64}

theorem andThen_characters_iff {other broken : Mismatch} {f : String → Checked α} :
    (characters other broken (.text s)).andThen f = .valid a ↔ holdsHalf s = false ∧ f s = .valid a := by
  show (if holdsHalf s then fault .notCharacters else valid s).andThen f = _ ↔ _
  cases holdsHalf s <;> simp [fault, andThen]

theorem not_holdsHalf_of_lt (h : ∀ c ∈ s.toList, isSpace c = true ∨ c.toNat < 128) : holdsHalf s = false := by
  rw [holdsHalf, List.any_eq_false]
  intro c hc
  have hlt : c.toNat < halfOffset := by
    rcases h c hc with hspace | hlt
    · simp only [isSpace, Bool.or_eq_true, Bool.and_eq_true, decide_eq_true_eq, beq_iff_eq] at hspace
      simp only [halfOffset]
      omega
    · exact Nat.lt_trans hlt (by decide)
  simp [isHalf, Nat.not_le.2 hlt]

theorem not_holdsHalf_of_boolWord? (h : boolWord? s = some b) : holdsHalf s = false := by
  have hall : ∀ w ∈ ["0", "off", "f", "false", "n", "no"] ++ ["1", "on", "t", "true", "y", "yes"],
      ∀ c ∈ w.toList, c.toNat < 128 := by decide +kernel
  have hword : String.ofList (s.toList.map Char.toLower) ∈
      ["0", "off", "f", "false", "n", "no"] ++ ["1", "on", "t", "true", "y", "yes"] := by
    unfold boolWord? at h
    dsimp only at h
    rw [List.mem_append]
    split at h
    · next hmem => exact .inl (List.contains_iff_mem.1 hmem)
    · split at h
      · next hmem => exact .inr (List.contains_iff_mem.1 hmem)
      · exact nomatch h
  -- the words are in ASCII, so the text whose small letters are one of them is as well
  refine not_holdsHalf_of_lt fun c hc => .inr (lt_of_toLower (hall _ hword _ ?_))
  rw [String.toList_ofList]
  exact List.mem_map_of_mem hc

theorem bool_text_eq_valid_iff : bool (.text s) = .valid b ↔ boolWord? s = some b := by
  refine andThen_characters_iff.trans ?_
  have hvalid : (boolWord? s).elim (fault .boolUnreadable) valid = .valid b ↔ boolWord? s = some b := by
    cases boolWord? s <;> simp [fault]
  rw [hvalid]
  exact ⟨And.right, fun h => ⟨not_holdsHalf_of_boolWord? h, h⟩⟩

/-! ### Integers -/

theorem integerIn_eq_valid_iff {d : Data} : integerIn low high d = .valid i ↔ integer d = .valid i ∧ low ≤ i ∧ i ≤ high := by
  rw [integerIn, andThen_eq_valid_iff]
  constructor
  · rintro ⟨j, hj, hbounds⟩
    split at hbounds
    · exact nomatch hbounds
    · split at hbounds
      · exact nomatch hbounds
      · next hlow hhigh =>
        obtain rfl := Checked.valid.inj hbounds
        exact ⟨hj, Int.not_lt.1 hlow, Int.not_lt.1 hhigh⟩
  · rintro ⟨hi, hlow, hhigh⟩
    exact ⟨i, hi, by rw [if_neg (Int.not_lt.2 hlow), if_neg (Int.not_lt.2 hhigh)]⟩

theorem integer_text_eq_valid_iff :
    integer (.text s) = .valid i ↔ holdsHalf s = false ∧ IntegerText.read? s.toList = .ok i := by
  refine andThen_characters_iff.trans (and_congr_right fun _ => ?_)
  cases IntegerText.read? s.toList with
  | ok j => simp
  | error e => cases e <;> simp [fault]

/-- Where an integer has to be positive, none is written in digits of another script in data. -/
theorem not_isForeign_of_integerIn (hlow : 1 ≤ low) (h : integerIn low high (.text s) = .valid i) :
    ∀ c ∈ s.toList, isForeign c = false := by
  obtain ⟨hread, hi, -⟩ := integerIn_eq_valid_iff.1 h
  intro c hc
  rcases IntegerText.mem_of_read? (Int.le_trans hlow hi) (integer_text_eq_valid_iff.1 hread).2 c hc with hspace | hlt
  · exact isForeign_of_isSpace hspace
  · exact isForeign_of_lt hlt

/-- **Positive integers are read alike in data and by themselves**, but for three forms that are known in data only, and for
the digits of other scripts, which are not. -/
theorem integerIn_text_iff (hlow : 1 ≤ low) :
    integerIn low high (.text s) = .valid i ∧ '.' ∉ s.toList ∧ Joins s ∧ (s.toList.filter Char.isDigit).length ≤ digitLimit ↔
      (wholeInteger s = .ok i ∧ low ≤ i ∧ i ≤ high) ∧ ∀ c ∈ s.toList, isForeign c = false := by
  rw [integerIn_eq_valid_iff, integer_text_eq_valid_iff]
  constructor
  · rintro ⟨⟨⟨-, hread⟩, hi, hhigh⟩, hpoint, hjoins, hshort⟩
    have hpos := Int.le_trans hlow hi
    obtain ⟨hwhole, hforeign⟩ :=
      (wholeInteger_iff hpos).2 (IntegerText.isGrouped_of_read? hpos hread hpoint hjoins hshort)
    exact ⟨⟨hwhole, hi, hhigh⟩, hforeign⟩
  · rintro ⟨⟨hwhole, hi, hhigh⟩, hforeign⟩
    have hpos := Int.le_trans hlow hi
    obtain ⟨cs, hgrouped, rfl⟩ := (wholeInteger_iff hpos).1 ⟨hwhole, hforeign⟩
    have hread := IntegerText.read?_of_isGrouped hgrouped hpos
    refine ⟨⟨⟨not_holdsHalf_of_lt (IntegerText.mem_of_read? hpos hread), hread⟩, hi, hhigh⟩, hgrouped.point_not_mem, ?_, ?_⟩
    · rw [Joins, joinsFrom_of_sign hgrouped.sign]
      exact hgrouped.joins
    · rw [filter_isDigit_of_sign hgrouped.sign]
      exact hgrouped.short

/-! ### Numbers -/

theorem numberIn_eq_valid_iff {d : Data} :
    numberIn least most d = .valid x ↔ number d = .valid x ∧ x.lt least = false ∧ x.le most = true := by
  rw [numberIn, andThen_eq_valid_iff]
  constructor
  · rintro ⟨y, hy, hbounds⟩
    split at hbounds
    · exact nomatch hbounds
    · split at hbounds
      · next hleast hmost =>
        obtain rfl := Checked.valid.inj hbounds
        exact ⟨hy, Bool.not_eq_true _ ▸ hleast, hmost⟩
      · exact nomatch hbounds
  · rintro ⟨hx, hleast, hmost⟩
    exact ⟨x, hx, by rw [hleast, hmost]; rfl⟩

theorem number_text_eq_valid_iff :
    number (.text s) = .valid x ↔ holdsHalf s = false ∧ Binary64.ofDataText? s = some x := by
  refine andThen_characters_iff.trans (and_congr_right fun _ => ?_)
  cases Binary64.ofDataText? s <;> simp [fault]

theorem isFinite_of_matches (h : (x matches .finite ..) = true) : Decimal.IsFinite x := by
  cases x with
  | finite n m e => exact ⟨n, m, e, rfl⟩
  | infinite _ | notANumber => exact nomatch h

/-- A number between two finite ones is finite. -/
theorem isFinite_of_bounds (hleast : Decimal.IsFinite least) (hmost : Decimal.IsFinite most) (hlow : x.lt least = false)
    (hhigh : x.le most = true) : Decimal.IsFinite x := by
  obtain ⟨n₁, m₁, e₁, rfl⟩ := hleast
  obtain ⟨n₂, m₂, e₂, rfl⟩ := hmost
  -- minus infinity is below the least, infinity and none are not below the most
  cases x with
  | finite n m e => exact ⟨n, m, e, rfl⟩
  | infinite negative => cases negative with
    | true => exact nomatch hlow
    | false => exact nomatch hhigh
  | notANumber => exact nomatch hhigh

/-- Where a number has to be finite, none is written in digits of another script in data, nor with a margin and underscores. -/
theorem of_number (hx : Decimal.IsFinite x) (h : number (.text s) = .valid x) :
    (∀ c ∈ s.toList, isForeign c = false) ∧ ('_' ∈ s.toList → trimBy isSpace s.toList = s.toList) := by
  obtain ⟨-, hread⟩ := number_text_eq_valid_iff.1 h
  refine ⟨fun c hc => ?_, Binary64.trimBy_of_ofDataText? hx hread⟩
  rcases Binary64.mem_of_ofDataText? hx hread c hc with hvisible | hspace
  · exact isForeign_of_lt hvisible.1
  · exact isForeign_of_isSpace hspace

theorem wholeNumber_eq_ok_iff : wholeNumber s = .ok x ↔ Binary64.ofText? s = some x := by
  unfold wholeNumber
  cases Binary64.ofText? s <;> simp

/-- **Finite numbers are read alike in data and by themselves**, but for loose underscores, which are known in data only, and
for the digits of other scripts and margins of numbers with underscores, which are not. -/
theorem numberIn_text_iff (hleast : Decimal.IsFinite least) (hmost : Decimal.IsFinite most) :
    numberIn least most (.text s) = .valid x ∧ Joins s ↔
      (wholeNumber s = .ok x ∧ x.lt least = false ∧ x.le most = true) ∧
        (∀ c ∈ s.toList, isForeign c = false) ∧ ('_' ∈ s.toList → trimBy isSpace s.toList = s.toList) := by
  rw [numberIn_eq_valid_iff, wholeNumber_eq_ok_iff]
  constructor
  · rintro ⟨⟨hnumber, hlow, hhigh⟩, hjoins⟩
    have hx := isFinite_of_bounds hleast hmost hlow hhigh
    obtain ⟨hforeign, hmargin⟩ := of_number hx hnumber
    have hread := (Binary64.ofDataText?_iff hx).1 ⟨(number_text_eq_valid_iff.1 hnumber).2, hjoins⟩
    exact ⟨⟨(Binary64.ofText?_eq hforeign).trans hread.1, hlow, hhigh⟩, hforeign, hmargin⟩
  · rintro ⟨⟨hread, hlow, hhigh⟩, hforeign, hmargin⟩
    have hx := isFinite_of_bounds hleast hmost hlow hhigh
    obtain ⟨hdata, hjoins⟩ := (Binary64.ofDataText?_iff hx).2 ⟨(Binary64.ofText?_eq hforeign).symm.trans hread, hmargin⟩
    have hhalf : holdsHalf s = false := not_holdsHalf_of_lt fun c hc =>
      (Binary64.mem_of_ofDataText? hx hdata c hc).symm.imp_right And.left
    exact ⟨⟨number_text_eq_valid_iff.2 ⟨hhalf, hdata⟩, hlow, hhigh⟩, hjoins⟩

end Reading

end VirtualTopology
