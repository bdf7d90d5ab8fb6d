import Mathlib.Data.List.TakeWhile
import VirtualTopology.Text.Numeral

/-!
# Written numbers are read back

The decimal text of a number consists of digits (`isDigit_toString`), so the lenient reader of whole
numbers finds neither blanks nor a sign, a mark of a base or an underscore in it, and gets the number back
(`integer?_toString`), as long as it has few enough digits to be written at all.
-/

namespace VirtualTopology.Text

theorem isDigit_toString (n : Nat) : ∀ c ∈ (toString n).toList, c.isDigit = true := by
  intro c hc
  rw [Nat.toString_eq_repr, Nat.toList_repr] at hc
  exact Nat.isDigit_of_mem_toDigits (by decide) (by decide) hc

theorem toNat_of_isDigit {c : Char} (h : c.isDigit = true) : 48 ≤ c.toNat ∧ c.toNat ≤ 57 := by
  simp only [Char.isDigit, Bool.and_eq_true, decide_eq_true_eq, ge_iff_le,
    UInt32.le_iff_toNat_le] at h
  exact h

theorem digit?_of_isDigit {c : Char} (h : c.isDigit = true) : digit? c = some (c.toNat - 48) := by
  have hbounds := toNat_of_isDigit h
  rw [digit?, if_pos (by omega), asciiDigit?, if_pos hbounds]

theorem digitIn?_of_isDigit {c : Char} (h : c.isDigit = true) :
    digitIn? 10 c = some (c.toNat - 48) := by
  have hten : c.toNat - 48 < 10 := digit?_lt (digit?_of_isDigit h)
  simp [digitIn?, digit?_of_isDigit h, Option.filter, hten]

/-- Digits are read one by one; there is no underscore between them. -/
theorem grouped?_of_isDigit {cs : List Char} (hne : cs ≠ []) (h : ∀ c ∈ cs, c.isDigit = true) :
    grouped? (digitIn? 10) cs = some (cs.map fun c => c.toNat - 48) := by
  fun_induction grouped? (digitIn? 10) cs with
  | case1 => exact absurd rfl hne
  | case2 c => simp [digitIn?_of_isDigit (h c (by simp))]
  | case3 c rest _ => exact absurd (h '_' (by simp)) (by decide)
  | case4 c rest hnil _ ih =>
    have hrest : rest ≠ [] := fun he => hnil he
    have hc := digitIn?_of_isDigit (h c (by simp))
    have ih := ih hrest fun d hd => h d (by simp [hd])
    simp [hc, ih]

theorem dropWhile_eq_self_of_head {p : Char → Bool} {cs : List Char} (h : ∀ c ∈ cs, p c = false) :
    cs.dropWhile p = cs := by
  cases cs with
  | nil => rfl
  | cons c cs => simp [h c (by simp)]

/-- A text without the characters of a class is not trimmed. -/
theorem trimBy_eq_self {p : Char → Bool} {cs : List Char} (h : ∀ c ∈ cs, p c = false) :
    trimBy p cs = cs := by
  rw [trimBy, dropWhile_eq_self_of_head h,
    dropWhile_eq_self_of_head fun c hc => h c (List.mem_reverse.1 hc), List.reverse_reverse]

theorem isSpace_of_isDigit {c : Char} (h : c.isDigit = true) : isSpace c = false := by
  obtain ⟨hlow, hhigh⟩ := toNat_of_isDigit h
  simp only [isSpace, Bool.or_eq_false_iff, Bool.and_eq_false_iff, decide_eq_false_iff_not,
    beq_eq_false_iff_ne]
  omega

/-- The digits in the text of a number denote the number. -/
theorem ofDigits_toDigits (n : Nat) : ofDigits ((Nat.toDigits 10 n).map fun c => c.toNat - 48) = n := by
  have hvalue : Nat.ofDigitChars 10 (Nat.toDigits 10 n) 0 = n := Nat.ofDigitChars_toDigits (by decide) (by decide)
  rw [Nat.ofDigitChars_eq_foldl] at hvalue
  rw [ofDigits, List.foldl_map]
  exact hvalue

/-- The text of a number is read as the number, unless it has too many digits. -/
theorem integer?_toString_eq (n : Nat) :
    integer? (toString n) =
      if digitLimit < (Nat.toDigits 10 n).length then .error (.tooLong (Nat.toDigits 10 n).length)
      else .ok n := by
  have hdigits := isDigit_toString n
  have hcs : (toString n).toList = Nat.toDigits 10 n := by rw [Nat.toString_eq_repr, Nat.toList_repr]
  have hne : Nat.toDigits 10 n ≠ [] := Nat.toDigits_ne_nil
  rw [hcs] at hdigits
  generalize hds : Nat.toDigits 10 n = ds at *
  -- the text has digits only, so nothing is taken off and nothing is left over
  have htrim : trimBy isSpace ds = ds := trimBy_eq_self fun c hc => isSpace_of_isDigit (hdigits c hc)
  have hsign : splitSign ds = (false, ds) := by
    unfold splitSign
    split
    · exact absurd (hdigits '-' (by simp)) (by decide)
    · exact absurd (hdigits '+' (by simp)) (by decide)
    · rfl
  have hmark : dropBaseMark 10 ds = ds := by
    unfold dropBaseMark
    split
    · simp [baseMark?]
    · rfl
  have hin : ∀ c ∈ ds, ((digitIn? 10 c).isSome || c == '_') = true := by
    intro c hc
    simp [digitIn?_of_isDigit (hdigits c hc)]
  have htake : ds.takeWhile (fun c => (digitIn? 10 c).isSome || c == '_') = ds := by
    rw [List.takeWhile_eq_self_iff]
    exact hin
  have hany : ds.any (fun c => !((digitIn? 10 c).isSome || c == '_')) = false := by
    rw [List.any_eq_false]
    intro c hc
    simp [hin c hc]
  have hvalue : (ds.map fun c => c.toNat - 48).foldl (fun n d => 10 * n + d) 0 = n := by
    rw [← hds]
    exact ofDigits_toDigits n
  rw [integer?, integerIn?, hcs, htrim, hsign]
  simp only [hmark, htake, grouped?_of_isDigit hne hdigits, List.length_map, true_and, hany,
    Bool.false_eq_true, if_false, hvalue]
  rfl

/-- A number that is not very large can be written. -/
theorem isWritable_of_lt {i : Int} (h : i.natAbs < Nat.pow 10 20) : isWritable i = true := by
  have hlimit : 20 ≤ digitLimit := by decide
  rw [isWritable, decide_eq_true_eq]
  -- the limit itself does not matter, and its power is not to be worked out
  generalize digitLimit = limit at hlimit ⊢
  exact Nat.lt_of_lt_of_le h (Nat.pow_le_pow_right (by decide) hlimit)

/-- A number can be written exactly if its text keeps to the limit for digits. -/
theorem isWritable_iff_length {n : Nat} : isWritable n = true ↔ (Nat.toDigits 10 n).length ≤ digitLimit := by
  have hlimit : 0 < digitLimit := by decide
  rw [isWritable, Int.natAbs_natCast, decide_eq_true_eq]
  -- the limit itself does not matter, and its power is not to be worked out
  generalize digitLimit = limit at hlimit ⊢
  exact (Nat.length_toDigits_le_iff (by decide) hlimit).symm

/-- **A written number is read back.** -/
theorem integer?_toString {n : Nat} (h : isWritable n = true) : integer? (toString n) = .ok n := by
  rw [integer?_toString_eq, if_neg (Nat.not_lt.2 (isWritable_iff_length.1 h))]

/-- If the text of a number is read, then as the number. -/
theorem eq_of_integer?_toString {n : Nat} {i : Int} (h : integer? (toString n) = .ok i) : i = n := by
  rw [integer?_toString_eq] at h
  split at h
  · exact absurd h (by simp)
  · exact (Except.ok.inj h).symm

end VirtualTopology.Text
