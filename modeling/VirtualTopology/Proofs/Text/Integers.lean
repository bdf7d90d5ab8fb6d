import VirtualTopology.Data.IntegerText
import VirtualTopology.Number.Refusal
import VirtualTopology.Proofs.Text.Grouping

/-!
# Two readers of integers

An integer is read in two ways: by itself, if it stands where nothing but an integer can stand (`wholeInteger`), and as a
text in data (`IntegerText.read?`). Both read digits with underscores between them, behind a plus sign possibly and within
a margin (`Text.IsGrouped`), and come to the same number.

By itself a positive integer may have digits of other scripts as well, and nothing else (`Text.wholeInteger_iff`). In data
it has ASCII digits only (`IntegerText.mem_of_read?`), but may have zeros in front beyond the limit for digits, underscores
among these zeros, and a point with zeros behind it; there is no further form (`IntegerText.isGrouped_of_read?`).
-/

namespace VirtualTopology

namespace Text

variable {cs pre : List Char} {ds : List Nat} {c : Char} {after : Bool}

/-- The number that some characters denote in digits. -/
def valueOf (cs : List Char) : Int := ofDigits (cs.filterMap asciiDigit?)

theorem length_filterMap_asciiDigit? (cs : List Char) :
    (cs.filterMap asciiDigit?).length = (cs.filter Char.isDigit).length := by
  induction cs with
  | nil => rfl
  | cons c cs ih =>
    cases hc : asciiDigit? c with
    | none => rw [List.filterMap_cons_none hc, ih, List.filter_cons_of_neg (by simp [asciiDigit?_eq_none_iff.1 hc])]
    | some d =>
      have hdigit : c.isDigit = true := by rw [← isSome_asciiDigit?, hc]; rfl
      rw [List.filterMap_cons_some hc, List.filter_cons_of_pos hdigit, List.length_cons, List.length_cons, ih]

/-- Whether some characters are the digits of a text that is an integer, with underscores between them, behind a plus sign
possibly and within a margin. -/
structure IsGrouped (s : String) (cs : List Char) : Prop where
  sign : splitSign (trimBy isSpace s.toList) = (false, cs)
  nonempty : cs ≠ []
  digits : ∀ c ∈ cs, c.isDigit = true ∨ c = '_'
  joins : joinsFrom false cs = true
  short : (cs.filter Char.isDigit).length ≤ digitLimit

namespace IsGrouped

variable {s : String}

theorem mem (h : IsGrouped s cs) : ∀ c ∈ s.toList, isSpace c = true ∨ c = '+' ∨ c.isDigit = true ∨ c = '_' := by
  obtain ⟨before, behind, heq, hbefore, hbehind⟩ := exists_margins h.sign
  intro c hc
  rw [heq, List.mem_append, List.mem_append] at hc
  rcases hc with (hc | hc) | hc
  · exact (hbefore c hc).imp_right .inl
  · exact .inr (.inr (h.digits c hc))
  · exact .inl (hbehind c hc)

theorem not_isForeign (h : IsGrouped s cs) : ∀ c ∈ s.toList, isForeign c = false := by
  intro c hc
  rcases h.mem c hc with hspace | rfl | hdigit | rfl
  · exact isForeign_of_isSpace hspace
  · rfl
  · exact isForeign_of_lt (by have := toNat_of_isDigit hdigit; omega)
  · rfl

theorem point_not_mem (h : IsGrouped s cs) : '.' ∉ s.toList := by
  intro hc
  rcases h.mem '.' hc with hspace | heq | hdigit | heq
  · exact nomatch hspace
  · exact nomatch heq
  · exact nomatch hdigit
  · exact nomatch heq

end IsGrouped

theorem joinsFrom_of_sign {l : List Char} (h : splitSign (trimBy isSpace l) = (false, cs)) :
    joinsFrom false l = joinsFrom false cs := by
  obtain ⟨before, behind, rfl, hbefore, hbehind⟩ := exists_margins h
  rw [List.append_assoc, joinsFrom_before, joinsFrom_behind fun c hc => isApart_of_isSpace (hbehind c hc)]
  intro c hc
  rcases hbefore c hc with hspace | rfl
  · exact isApart_of_isSpace hspace
  · exact ⟨by decide, rfl⟩

theorem filter_isDigit_of_sign {l : List Char} (h : splitSign (trimBy isSpace l) = (false, cs)) :
    l.filter Char.isDigit = cs.filter Char.isDigit := by
  obtain ⟨before, behind, rfl, hbefore, hbehind⟩ := exists_margins h
  have hnone {ds : List Char} (hds : ∀ c ∈ ds, isSpace c = true ∨ c = '+') : ds.filter Char.isDigit = [] := by
    rw [List.filter_eq_nil_iff]
    intro c hc
    rcases hds c hc with hspace | rfl
    · simp [isDigit_of_isSpace hspace]
    · decide
  rw [List.filter_append, List.filter_append, hnone hbefore, hnone fun c hc => .inl (hbehind c hc), List.nil_append,
    List.append_nil]

/-! ### Integers by themselves -/

theorem grouped?_congr {v v' : Char → Option Nat} (h : ∀ c ∈ cs, v c = v' c) : grouped? v cs = grouped? v' cs := by
  fun_induction grouped? v cs with
  | case1 => rfl
  | case2 c => rw [grouped?, h c List.mem_cons_self]
  | case3 c rest ih =>
    rw [List.forall_mem_cons, List.forall_mem_cons] at h
    rw [grouped?, h.1, ih h.2.2]
  | case4 c rest hnil hhead ih =>
    rw [List.forall_mem_cons] at h
    rw [grouped?, h.1, ih h.2]
    · exact hnil
    · exact hhead

theorem isSome_of_grouped? {v : Char → Option Nat} (h : grouped? v cs = some ds) : ∀ c ∈ cs, (v c).isSome = true ∨ c = '_' := by
  fun_induction grouped? v cs generalizing ds with
  | case1 => simp
  | case2 c =>
    obtain ⟨d, hd, -⟩ := Option.map_eq_some_iff.1 h
    simp [hd]
  | case3 c rest ih =>
    obtain ⟨d, hd, h⟩ := Option.bind_eq_some_iff.1 h
    obtain ⟨_, hrest, -⟩ := Option.bind_eq_some_iff.1 h
    simpa [hd] using ih hrest
  | case4 c rest hnil hhead ih =>
    obtain ⟨d, hd, h⟩ := Option.bind_eq_some_iff.1 h
    obtain ⟨_, hrest, -⟩ := Option.bind_eq_some_iff.1 h
    simpa [hd] using ih hrest

theorem digitIn?_ten : digitIn? 10 = digit? := by
  funext c
  unfold digitIn?
  cases hc : digit? c with
  | some d => simp [digit?_lt hc]
  | none =>
    -- a letter counts ten at least
    have hascii : ¬ (48 ≤ c.toNat ∧ c.toNat ≤ 57) := by
      intro h
      rw [digit?, if_pos (by omega), asciiDigit?, if_pos h] at hc
      cases hc
    unfold hexDigit?
    simp only [hascii, if_false, Option.none_or]
    split
    · simp; omega
    · split
      · simp; omega
      · rfl

/-- **A text is an integer by itself** if it is a sign, possibly, and grouped digits of any script. -/
theorem integer?_eq_ok_iff {s : String} {i : Int} : integer? s = .ok i ↔ ∃ ds,
    grouped? digit? (splitSign (trimBy isSpace s.toList)).2 = some ds ∧ ds.length ≤ digitLimit ∧
      i = signed (splitSign (trimBy isSpace s.toList)).1 (ofDigits ds) := by
  rw [integer?, integerIn?, digitIn?_ten]
  generalize splitSign (trimBy isSpace s.toList) = split
  obtain ⟨negative, cs⟩ := split
  have hmark : dropBaseMark 10 cs = cs := by
    unfold dropBaseMark
    split <;> simp [baseMark?]
  dsimp only
  rw [hmark]
  constructor
  · intro h
    split at h
    · cases h
    · next ds hds =>
      split at h
      · cases h
      · next hlimit =>
        split at h
        · cases h
        · next hall =>
          -- all characters are digits or underscores, so all of them were taken
          have hin := List.any_eq_false.1 (Bool.not_eq_true _ ▸ hall)
          have hall' : ∀ c ∈ cs, ((digit? c).isSome || c == '_') = true := fun c hc => by
            cases hd : digit? c with
            | some d => rfl
            | none => simpa [hd] using hin c hc
          rw [List.takeWhile_eq_self_iff.2 hall'] at hds
          exact ⟨ds, hds, by simpa using hlimit, (Except.ok.inj h).symm⟩
  · rintro ⟨ds, hds, hlimit, rfl⟩
    have hall : ∀ c ∈ cs, ((digit? c).isSome || c == '_') = true := by simpa using isSome_of_grouped? hds
    have hany : (cs.any fun c => !((digit? c).isSome || c == '_')) = false := by
      rw [List.any_eq_false]
      intro c hc
      simp [hall c hc]
    rw [List.takeWhile_eq_self_iff.2 hall, hds]
    simp only [Nat.not_lt.2 hlimit, and_false, if_false, hany, Bool.false_eq_true]
    rfl

theorem wholeInteger_eq_ok_iff {s : String} {i : Int} : wholeInteger s = .ok i ↔ integer? s = .ok i := by
  rw [wholeInteger, wholeIntegerIn, ← integer?]
  cases integer? s with
  | ok j => simp
  | error e => cases e <;> simp

/-- **A text is a positive integer in ASCII by itself** if it has grouped digits without a minus sign. -/
theorem wholeInteger_iff {s : String} {i : Int} (hpos : 1 ≤ i) :
    wholeInteger s = .ok i ∧ (∀ c ∈ s.toList, isForeign c = false) ↔ ∃ cs, IsGrouped s cs ∧ i = valueOf cs := by
  rw [wholeInteger_eq_ok_iff, integer?_eq_ok_iff]
  generalize hsplit : splitSign (trimBy isSpace s.toList) = split
  obtain ⟨negative, cs⟩ := split
  constructor
  · rintro ⟨⟨ds, hds, hshort, rfl⟩, hascii⟩
    cases negative with
    | true =>
      rw [signed, if_pos rfl] at hpos
      omega
    | false =>
      obtain ⟨before, behind, heq, -, -⟩ := exists_margins hsplit
      have hmem : ∀ c ∈ cs, c ∈ s.toList := fun c hc => by simp [heq, hc]
      -- without digits of other scripts the digits have the values they have in ASCII
      rw [grouped?_congr fun c hc => digit?_of_not_isForeign (hascii c (hmem c hc)), grouped?_eq_some_iff] at hds
      obtain ⟨hne, hdigits, hjoins, rfl⟩ := hds
      exact ⟨cs, ⟨hsplit, hne, hdigits, hjoins, length_filterMap_asciiDigit? cs ▸ hshort⟩, rfl⟩
  · rintro ⟨cs', hgrouped, rfl⟩
    obtain ⟨rfl, rfl⟩ := Prod.mk.inj (hsplit.symm.trans hgrouped.sign)
    have hmem : ∀ c ∈ cs, c ∈ s.toList := by
      obtain ⟨before, behind, heq, -, -⟩ := exists_margins hsplit
      exact fun c hc => by simp [heq, hc]
    have hread : grouped? digit? cs = some (cs.filterMap asciiDigit?) := by
      rw [grouped?_congr fun c hc => digit?_of_not_isForeign (hgrouped.not_isForeign c (hmem c hc)), grouped?_eq_some_iff]
      exact ⟨hgrouped.nonempty, hgrouped.digits, hgrouped.joins, rfl⟩
    exact ⟨⟨_, hread, length_filterMap_asciiDigit? cs ▸ hgrouped.short, rfl⟩, hgrouped.not_isForeign⟩

end Text

namespace IntegerText

open Text

variable {cs : List Char} {c : Char} {i : Int}

/-! ### Integers in data -/

/-- Whether characters are the strict form of an integer without a sign. -/
structure IsStrict (cs : List Char) : Prop where
  digits : ∀ c ∈ cs, c.isDigit = true
  nonempty : cs ≠ []
  short : cs.length ≤ digitLimit
  leading : cs = ['0'] ∨ cs.head? ≠ some '0'

/-- The strict form is read, and nothing else that has no minus sign. -/
theorem strict?_eq_ok_iff (h : cs.head? ≠ some '-') : strict? cs = .ok i ↔ IsStrict cs ∧ i = valueOf cs := by
  have hnegative : (cs.head? == some '-') = false := beq_false_of_ne h
  unfold strict?
  rw [hnegative]
  simp only [Bool.false_eq_true, if_false, Nat.add_zero]
  split
  · constructor
    · rintro h
      obtain rfl := Except.ok.inj h
      exact ⟨⟨by decide, by decide, by decide, .inl rfl⟩, by decide⟩
    · rintro ⟨-, rfl⟩
      rfl
  · next c rest hzero =>
    have hne : c :: rest ≠ ['0'] := by
      rintro heq
      obtain ⟨rfl, rfl⟩ := List.cons.inj heq
      exact hzero rfl rfl
    constructor
    · intro h
      split at h
      · exact nomatch h
      · next hhead =>
        split at h
        · exact nomatch h
        · next hshort =>
          split at h
          · exact nomatch h
          · next hlength =>
            -- the run of digits is as long as the text, so it is the text
            have htake : (c :: rest).takeWhile Char.isDigit = c :: rest :=
              (List.takeWhile_prefix _).eq_of_length_le (Nat.not_lt.1 hlength)
            rw [htake] at h hshort
            have hzero : c ≠ '0' := fun heq => hhead (by simp [heq])
            exact ⟨⟨List.takeWhile_eq_self_iff.1 htake, List.cons_ne_nil _ _, Nat.not_lt.1 hshort,
              .inr fun heq => hzero (Option.some.inj heq)⟩, (Except.ok.inj h).symm⟩
    · rintro ⟨⟨hdigits, -, hshort, hleading⟩, rfl⟩
      have hzero : c ≠ '0' := fun heq => hleading.elim hne fun h => h (heq ▸ rfl)
      rw [List.takeWhile_eq_self_iff.2 hdigits]
      simp only [beq_false_of_ne hzero, List.isEmpty_cons, Bool.or_self, Bool.false_eq_true, if_false, Nat.not_lt.2 hshort,
        Nat.lt_irrefl]
      rfl
  · constructor
    · exact nofun
    · rintro ⟨hstrict, -⟩
      exact absurd rfl hstrict.nonempty

/-- What is read behind a minus sign is not positive. -/
theorem nonpos_of_strict? (h : cs.head? = some '-') (hi : strict? cs = .ok i) : i ≤ 0 := by
  have hnegative : (cs.head? == some '-') = true := by rw [h]; rfl
  unfold strict? at hi
  rw [hnegative] at hi
  simp only [if_true] at hi
  split at hi
  · exact Int.le_of_eq (Except.ok.inj hi).symm
  · split at hi
    · exact nomatch hi
    · split at hi
      · exact nomatch hi
      · split at hi
        · exact nomatch hi
        · rw [← Except.ok.inj hi, signed, if_pos rfl]
          omega
  · exact nomatch hi

theorem isStrict_of_pos (hi : strict? cs = .ok i) (hpos : 1 ≤ i) : IsStrict cs ∧ i = valueOf cs := by
  refine (strict?_eq_ok_iff fun h => ?_).1 hi
  have := nonpos_of_strict? h hi
  omega

/-- Without a minus sign an integer is too long for its digits alone. -/
theorem lt_of_strict?_tooLong (h : cs.head? ≠ some '-') {k : Nat} (hlong : strict? cs = .error (.tooLong k)) :
    digitLimit < (cs.filter Char.isDigit).length := by
  have hnegative : (cs.head? == some '-') = false := beq_false_of_ne h
  unfold strict? at hlong
  rw [hnegative] at hlong
  simp only [Bool.false_eq_true, if_false, Nat.add_zero] at hlong
  have hrun : (cs.takeWhile Char.isDigit).length ≤ (cs.filter Char.isDigit).length := by
    have hfilter := (List.takeWhile_sublist Char.isDigit (l := cs)).filter Char.isDigit
    rw [List.filter_eq_self.2 fun c hc => List.mem_takeWhile_imp hc] at hfilter
    exact hfilter.length_le
  split at hlong
  · exact nomatch hlong
  · split at hlong
    · exact nomatch hlong
    · split at hlong
      · next hlimit => exact Nat.lt_of_lt_of_le hlimit hrun
      · split at hlong <;> exact nomatch hlong
  · exact nomatch hlong

theorem valueOf_append_zeros {pre : List Char} (h : ∀ c ∈ pre, c = '0' ∨ c = '_') : valueOf (pre ++ cs) = valueOf cs := by
  induction pre with
  | nil => rfl
  | cons c pre ih =>
    rw [List.forall_mem_cons] at h
    rw [← ih h.2]
    rcases h.1 with rfl | rfl
    · simp [valueOf, show asciiDigit? '0' = some 0 from rfl, ofDigits]
    · simp [valueOf, show asciiDigit? '_' = none from rfl]

theorem filterMap_ungrouped : (ungrouped cs).filterMap asciiDigit? = cs.filterMap asciiDigit? := by
  induction cs with
  | nil => rfl
  | cons c cs ih =>
    by_cases hc : c = '_'
    · subst hc
      simpa [show asciiDigit? '_' = none from rfl] using ih
    · rw [ungrouped_cons hc, List.filterMap_cons, List.filterMap_cons, ih]

/-! #### What is taken off -/

/-- Whether a character is taken off in front of digits. -/
def isFiller (c : Char) : Bool := c == '0' || c == '_'

theorem dropZeros?_eq_some {last : Char} {u : List Char} (hlast : last = '0' ∨ last = '_')
    (h : dropZeros? last cs = some u) : (∃ x, u = [x] ∧ (x = '0' ∨ x = '_')) ∨ '.' ∈ cs ∨
      ∃ pre, cs = pre ++ u ∧ ∀ c ∈ pre, c = '0' ∨ c = '_' := by
  induction cs generalizing last with
  | nil => exact .inl ⟨last, (Option.some.inj h).symm, hlast⟩
  | cons c cs ih =>
    unfold dropZeros? at h
    split at h
    · next hc =>
      have hc : c = '0' ∨ c = '_' := by simpa using hc
      rcases ih hc h with hend | hpoint | ⟨pre, rfl, hpre⟩
      · exact .inl hend
      · exact .inr (.inl (List.mem_cons_of_mem _ hpoint))
      · exact .inr (.inr ⟨c :: pre, rfl, List.forall_mem_cons.2 ⟨hc, hpre⟩⟩)
    · split at h
      · obtain rfl := Option.some.inj h
        exact .inr (.inr ⟨[], rfl, nofun⟩)
      · split at h
        · next hpoint => exact .inr (.inl (by simp [beq_iff_eq.1 hpoint]))
        · exact nomatch h

theorem mem_of_dropZeros? {last : Char} {u : List Char} (h : dropZeros? last cs = some u) :
    ∀ c ∈ cs, c ∈ u ∨ c = '0' ∨ c = '_' := by
  induction cs generalizing last with
  | nil => simp
  | cons c cs ih =>
    unfold dropZeros? at h
    rw [List.forall_mem_cons]
    split at h
    · next hc => exact ⟨.inr (by simpa using hc), ih h⟩
    · split at h
      · obtain rfl := Option.some.inj h
        exact ⟨.inl List.mem_cons_self, fun d hd => .inl (List.mem_cons_of_mem _ hd)⟩
      · split at h
        · obtain rfl := Option.some.inj h
          exact ⟨.inl (by simp), fun d hd => .inl (by simp [hd])⟩
        · exact nomatch h

theorem dropZeros?_dropWhile {last : Char}
    (h : (cs.dropWhile isFiller).head?.any Char.isDigit = true) :
    dropZeros? last cs = some (cs.dropWhile isFiller) := by
  induction cs generalizing last with
  | nil => exact nomatch h
  | cons c cs ih =>
    rw [dropZeros?]
    by_cases hc : isFiller c = true
    · rw [List.dropWhile_cons_of_pos hc] at h ⊢
      rw [if_pos (show (c == '0' || c == '_') = true from hc), ih h]
    · rw [List.dropWhile_cons_of_neg hc] at h ⊢
      have hdigit : c.isDigit = true := h
      rw [if_neg (show ¬ (c == '0' || c == '_') = true from hc), if_pos (by rw [hdigit]; rfl)]

theorem dropFraction_eq_self (h : '.' ∉ cs) : dropFraction cs = cs := by
  have hnone : cs.dropWhile (· != '.') = [] := by
    rw [List.dropWhile_eq_nil_iff]
    intro c hc
    have hne : c ≠ '.' := fun heq => h (heq ▸ hc)
    simpa using hne
  rw [dropFraction, hnone]

theorem mem_of_dropFraction : ∀ c ∈ cs, c ∈ dropFraction cs ∨ c = '.' ∨ c = '0' := by
  intro c hc
  unfold dropFraction
  split
  · next x zeros hdrop =>
    split
    · next hzeros =>
      have hx : x = '.' := by
        have hhead := List.head?_dropWhile_not (· != '.') cs
        rw [hdrop] at hhead
        simpa using hhead
      have hall : ∀ d ∈ zeros, d = '0' := by simpa using (Bool.and_eq_true_iff.1 hzeros).2
      rw [← List.takeWhile_append_dropWhile (p := (· != '.')) (l := cs), hdrop, List.mem_append, List.mem_cons] at hc
      rcases hc with hc | rfl | hc
      · exact .inl hc
      · exact .inr (.inl hx)
      · exact .inr (.inr (hall c hc))
    · exact .inl hc
  · exact .inl hc

theorem dropUnderscores_eq : dropUnderscores cs = cs ∨ dropUnderscores cs = ungrouped cs := by
  unfold dropUnderscores
  dsimp only
  rw [flatten_splitOn]
  split
  · exact .inl rfl
  · exact .inr rfl

theorem dropUnderscores_of_joins (hne : cs ≠ []) (h : joinsFrom false cs = true) :
    dropUnderscores cs = ungrouped cs := by
  unfold dropUnderscores
  dsimp only
  rw [any_isEmpty_splitOn hne h, flatten_splitOn]
  rfl

/-! #### Positive integers -/

/-- What is tidied to a positive integer consists of digits and underscores, if it has no point. -/
theorem of_dropUnderscores (hi : strict? (dropUnderscores cs) = .ok i) (hpos : 1 ≤ i) :
    (∀ c ∈ cs, c.isDigit = true ∨ c = '_') ∧ i = valueOf cs := by
  obtain ⟨hstrict, rfl⟩ := isStrict_of_pos hi hpos
  obtain heq | heq : dropUnderscores cs = cs ∨ dropUnderscores cs = ungrouped cs := dropUnderscores_eq
  · rw [heq] at hstrict ⊢
    exact ⟨fun c hc => .inl (hstrict.digits c hc), rfl⟩
  · rw [heq] at hstrict ⊢
    refine ⟨fun c hc => ?_, by rw [valueOf, filterMap_ungrouped, valueOf]⟩
    by_cases hunderscore : c = '_'
    · exact .inr hunderscore
    · exact .inl (hstrict.digits c (by simp [hc, hunderscore]))

/-- Take off a plus sign, behind which there is no other. -/
def unsigned? : List Char → Option (List Char)
  | '+' :: '-' :: _ => none
  | '+' :: cs => some cs
  | cs => some cs

/-- Take off zeros in front. -/
def unpadded? : List Char → Option (List Char)
  | '0' :: rest => dropZeros? '0' rest
  | c :: cs => if c.isDigit || c == '-' then some (c :: cs) else none
  | [] => none

theorem unsigned?_plus (h : cs.head? ≠ some '-') : unsigned? ('+' :: cs) = some cs := by
  unfold unsigned?
  split
  · next heq => exact absurd (congrArg List.head? (List.cons.inj heq).2) h
  · next heq => rw [(List.cons.inj heq).2]
  · next _ hplus => exact absurd rfl (hplus cs)

theorem unsigned?_of_head (h : cs.head? ≠ some '+') : unsigned? cs = some cs := by
  unfold unsigned?
  split
  · exact absurd rfl h
  · exact absurd rfl h
  · rfl

/-- Tidying takes off the margin, the sign, zeros in front, and then what stands behind and between the digits. -/
theorem tidied?_eq (l : List Char) : tidied? l =
    ((unsigned? (trimBy isSpace l)).bind unpadded?).bind fun u => some (dropUnderscores (dropFraction u)) := by
  -- behind the sign the first character decides
  have hrest (cs : List Char) : (match cs with
      | '0' :: rest => (dropZeros? '0' rest).bind fun u => some (dropUnderscores (dropFraction u))
      | c :: _ =>
        if c.isDigit || c == '-' then some (dropUnderscores (dropFraction cs)) else none
      | [] => none) = (unpadded? cs).bind fun u => some (dropUnderscores (dropFraction u)) := by
    unfold unpadded?
    split
    · rfl
    · split <;> rfl
    · rfl
  unfold tidied?
  dsimp only
  split
  · next heq => rw [heq]; rfl
  · next cs hminus heq =>
    have hhead : cs.head? ≠ some '-' := fun h => by
      obtain ⟨tail, rfl⟩ := List.head?_eq_some_iff.1 h
      exact hminus tail rfl
    rw [heq, unsigned?_plus hhead, Option.bind_some]
    exact hrest cs
  · next hminus hplus =>
    have hhead : (trimBy isSpace l).head? ≠ some '+' := fun h => by
      obtain ⟨tail, heq⟩ := List.head?_eq_some_iff.1 h
      exact hplus tail heq
    rw [unsigned?_of_head hhead, Option.bind_some]
    exact hrest _

theorem eq_of_unsigned? {l : List Char} (h : unsigned? l = some cs) : l = '+' :: cs ∨ l = cs := by
  unfold unsigned? at h
  split at h
  · exact nomatch h
  · exact .inl (congrArg _ (Option.some.inj h))
  · exact .inr (Option.some.inj h)

variable {s : String}

/-- An integer in data is read in its strict form, or else in the form in which it has been tidied. -/
theorem of_read? {l : List Char} (h : read? l = .ok i) : strict? l = .ok i ∨ ∃ cs u,
    unsigned? (trimBy isSpace l) = some cs ∧ unpadded? cs = some u ∧ strict? (dropUnderscores (dropFraction u)) = .ok i := by
  unfold read? at h
  split at h
  · split at h
    · next t ht =>
      rw [tidied?_eq] at ht
      obtain ⟨u, hu, ht⟩ := Option.bind_eq_some_iff.1 ht
      obtain rfl := Option.some.inj ht
      obtain ⟨cs, hcs, hzeros⟩ := Option.bind_eq_some_iff.1 hu
      exact .inr ⟨cs, u, hcs, hzeros, h⟩
    · exact nomatch h
  · exact .inl h

theorem mem_of_unsigned? {l : List Char} (h : unsigned? (trimBy isSpace l) = some cs) (hc : c ∈ l) :
    isSpace c = true ∨ c = '+' ∨ c ∈ cs := by
  obtain ⟨before, behind, heq, hbefore, hbehind⟩ := exists_trimBy isSpace l
  rw [heq, List.mem_append, List.mem_append] at hc
  rcases hc with (hc | hc) | hc
  · exact .inl (hbefore c hc)
  · rcases eq_of_unsigned? h with hsign | hsign
    · rw [hsign, List.mem_cons] at hc
      exact .inr hc
    · exact .inr (.inr (hsign ▸ hc))
  · exact .inl (hbehind c hc)

theorem mem_of_mem_unsigned? {l : List Char} (h : unsigned? (trimBy isSpace l) = some cs) (hc : c ∈ cs) : c ∈ l := by
  obtain ⟨before, behind, heq, -, -⟩ := exists_trimBy isSpace l
  rw [heq, List.mem_append, List.mem_append]
  rcases eq_of_unsigned? h with hsign | hsign <;> simp [hsign, hc]

/-- Behind a sign that is taken off there is no other one, if there are digits and underscores. -/
theorem splitSign_of_unsigned? {l : List Char} (h : unsigned? l = some cs) (hcs : ∀ c ∈ cs, c.isDigit = true ∨ c = '_') :
    splitSign l = (false, cs) := by
  rcases eq_of_unsigned? h with rfl | rfl
  · rfl
  · unfold splitSign
    split
    · exact absurd (hcs '-' List.mem_cons_self) (by decide)
    · exact absurd (hcs '+' List.mem_cons_self) (by decide)
    · rfl

theorem mem_of_unpadded? {u : List Char} (h : unpadded? cs = some u) (hc : c ∈ cs) : c ∈ u ∨ c = '0' ∨ c = '_' := by
  unfold unpadded? at h
  split at h
  · rcases List.mem_cons.1 hc with rfl | hc
    · exact .inr (.inl rfl)
    · exact mem_of_dropZeros? h c hc
  · split at h
    · exact .inl (Option.some.inj h ▸ hc)
    · exact nomatch h
  · exact nomatch h

/-- What is tidied to a positive integer consists of digits and underscores in front of its zeros as well. -/
theorem of_unpadded? {u : List Char} (h : unpadded? cs = some u) (hpoint : '.' ∉ cs)
    (hi : strict? (dropUnderscores (dropFraction u)) = .ok i) (hpos : 1 ≤ i) :
    (∀ c ∈ cs, c.isDigit = true ∨ c = '_') ∧ i = valueOf cs := by
  unfold unpadded? at h
  split at h
  · next rest =>
    rw [List.mem_cons, not_or] at hpoint
    rcases dropZeros?_eq_some (.inl rfl) h with ⟨x, rfl, hx⟩ | hc | ⟨pre, rfl, hpre⟩
    · -- there is nothing but zeros
      have hx' : '.' ∉ [x] := by rcases hx with rfl | rfl <;> decide
      rw [dropFraction_eq_self hx'] at hi
      obtain ⟨-, rfl⟩ := of_dropUnderscores hi hpos
      rcases hx with rfl | rfl <;> exact absurd hpos (by decide)
    · exact absurd hc hpoint.2
    · rw [dropFraction_eq_self fun hc => hpoint.2 (List.mem_append_right _ hc)] at hi
      obtain ⟨hdigits, rfl⟩ := of_dropUnderscores hi hpos
      have hpre' : ∀ c ∈ '0' :: pre, c = '0' ∨ c = '_' := List.forall_mem_cons.2 ⟨.inl rfl, hpre⟩
      refine ⟨fun c hc => ?_, (valueOf_append_zeros hpre').symm⟩
      rcases List.mem_append.1 (show c ∈ ('0' :: pre) ++ u from hc) with hc | hc
      · rcases hpre' c hc with rfl | rfl
        · exact .inl rfl
        · exact .inr rfl
      · exact hdigits c hc
  · split at h
    · obtain rfl := Option.some.inj h
      rw [dropFraction_eq_self hpoint] at hi
      exact of_dropUnderscores hi hpos
    · exact nomatch h
  · exact nomatch h

/-- **A positive integer in data without a point, too many digits and loose underscores** has grouped digits. -/
theorem isGrouped_of_read? (hpos : 1 ≤ i) (h : read? s.toList = .ok i) (hpoint : '.' ∉ s.toList) (hjoins : Joins s)
    (hshort : (s.toList.filter Char.isDigit).length ≤ digitLimit) : ∃ cs, IsGrouped s cs ∧ i = valueOf cs := by
  -- all that is left to be seen are the characters behind the sign, for the rest is known of the text
  suffices hdigits : ∃ cs, splitSign (trimBy isSpace s.toList) = (false, cs) ∧ (∀ c ∈ cs, c.isDigit = true ∨ c = '_') ∧
      i = valueOf cs by
    obtain ⟨cs, hsign, hcs, rfl⟩ := hdigits
    refine ⟨cs, ⟨hsign, ?_, hcs, joinsFrom_of_sign hsign ▸ hjoins, filter_isDigit_of_sign hsign ▸ hshort⟩, rfl⟩
    rintro rfl
    exact absurd hpos (by decide)
  rcases of_read? h with hi | ⟨cs, u, hcs, hu, hi⟩
  · obtain ⟨hstrict, rfl⟩ := isStrict_of_pos hi hpos
    have hdigits : ∀ c ∈ s.toList, c.isDigit = true ∨ c = '_' := fun c hc => .inl (hstrict.digits c hc)
    have htrim : trimBy isSpace s.toList = s.toList :=
      trimBy_eq_self fun c hc => isSpace_of_isDigit (hstrict.digits c hc)
    have hplus : s.toList.head? ≠ some '+' := fun hhead =>
      absurd (hstrict.digits '+' (List.mem_of_head? hhead)) (by decide)
    refine ⟨s.toList, ?_, hdigits, rfl⟩
    rw [htrim]
    exact splitSign_of_unsigned? (unsigned?_of_head hplus) hdigits
  · have hpoint' : '.' ∉ cs := fun hc => hpoint (mem_of_mem_unsigned? hcs hc)
    obtain ⟨hdigits, rfl⟩ := of_unpadded? hu hpoint' hi hpos
    exact ⟨cs, splitSign_of_unsigned? hcs hdigits, hdigits, rfl⟩

/-! #### Grouped digits -/

theorem valueOf_dropWhile (cs : List Char) : valueOf (cs.dropWhile isFiller) = valueOf cs := by
  have hfillers : ∀ c ∈ cs.takeWhile isFiller, c = '0' ∨ c = '_' := fun c hc => by
    simpa [isFiller] using List.mem_takeWhile_imp hc
  rw [← valueOf_append_zeros hfillers, List.takeWhile_append_dropWhile]

/-- Grouped digits of a positive number have a first digit that is not taken off. -/
theorem exists_dropWhile (h : IsGrouped s cs) (hpos : 1 ≤ valueOf cs) :
    ∃ c rest, cs.dropWhile isFiller = c :: rest ∧ c.isDigit = true ∧ c ≠ '0' := by
  have hne : cs.dropWhile isFiller ≠ [] := by
    intro hnil
    rw [← valueOf_dropWhile, hnil] at hpos
    exact absurd hpos (by decide)
  obtain ⟨c, rest, heq⟩ := List.exists_cons_of_ne_nil hne
  have hfirst := List.head?_dropWhile_not isFiller cs
  rw [heq] at hfirst
  obtain ⟨hzero, hunderscore⟩ : c ≠ '0' ∧ c ≠ '_' := by simpa [isFiller] using hfirst
  have hmem : c ∈ cs := (List.dropWhile_suffix isFiller).subset (heq ▸ List.mem_cons_self)
  exact ⟨c, rest, heq, (h.digits c hmem).resolve_right hunderscore, hzero⟩

theorem unpadded?_of_isGrouped (h : IsGrouped s cs) (hpos : 1 ≤ valueOf cs) :
    unpadded? cs = some (cs.dropWhile isFiller) := by
  obtain ⟨c, rest, hu, hdigit, -⟩ := exists_dropWhile h hpos
  unfold unpadded?
  split
  · next tail =>
    rw [List.dropWhile_cons_of_pos (by rfl)] at hu ⊢
    exact dropZeros?_dropWhile (by rw [hu]; exact hdigit)
  · next d tail hd =>
    have hd' : d.isDigit = true := head?_isDigit h.nonempty h.digits h.joins
    have hnot : isFiller d = false := by simp [isFiller, show d ≠ '0' from hd, ne_underscore hd']
    rw [List.dropWhile_cons_of_neg (by simp [hnot]), hd']
    rfl
  · exact absurd rfl h.nonempty

theorem ungrouped_eq_filter (h : ∀ c ∈ cs, c.isDigit = true ∨ c = '_') : ungrouped cs = cs.filter Char.isDigit := by
  refine List.filter_congr fun c hc => ?_
  rcases h c hc with hc | rfl
  · simp [hc, ne_underscore hc]
  · rfl

/-- What stands behind zeros and underscores in grouped digits is their strict form, up to underscores. -/
theorem isStrict_of_isGrouped (h : IsGrouped s cs) (hpos : 1 ≤ valueOf cs) :
    IsStrict (dropUnderscores (cs.dropWhile isFiller)) ∧ valueOf (dropUnderscores (cs.dropWhile isFiller)) = valueOf cs := by
  have hsuffix := List.dropWhile_suffix isFiller (l := cs)
  have hvalue := valueOf_dropWhile cs
  obtain ⟨c, rest, hu, hdigit, hzero⟩ := exists_dropWhile h hpos
  rw [hu] at hsuffix hvalue ⊢
  have hmem : ∀ d ∈ c :: rest, d.isDigit = true ∨ d = '_' := fun d hd => h.digits d (hsuffix.subset hd)
  have hjoins : joinsFrom false (c :: rest) = true := by
    obtain ⟨pre, hpre⟩ := hsuffix
    have hall : joinsFrom false (pre ++ c :: rest) = true := hpre ▸ h.joins
    exact joinsFrom_append hall fun heq => ne_underscore hdigit (Option.some.inj heq)
  have hshort := (hsuffix.sublist.filter Char.isDigit).length_le.trans h.short
  rw [dropUnderscores_of_joins (List.cons_ne_nil _ _) hjoins]
  refine ⟨⟨fun d hd => ?_, ?_, ?_, .inr ?_⟩, ?_⟩
  · rw [mem_ungrouped_iff] at hd
    exact (hmem d hd.1).resolve_right hd.2
  · rw [ungrouped_cons (ne_underscore hdigit)]
    exact List.cons_ne_nil _ _
  · rwa [ungrouped_eq_filter hmem]
  · rw [ungrouped_cons (ne_underscore hdigit)]
    exact fun heq => hzero (Option.some.inj heq)
  · rw [valueOf, filterMap_ungrouped, ← valueOf, hvalue]

/-- **Grouped digits are read in data**, as the number that they are by themselves. -/
theorem read?_of_isGrouped (h : IsGrouped s cs) (hpos : 1 ≤ valueOf cs) : read? s.toList = .ok (valueOf cs) := by
  have hminus : s.toList.head? ≠ some '-' := by
    intro hhead
    rcases h.mem '-' (List.mem_of_head? hhead) with hc | hc | hc | hc <;> exact nomatch hc
  unfold read?
  cases hstrict : strict? s.toList with
  | ok j =>
    obtain ⟨⟨hdigits, -, -, -⟩, rfl⟩ := (strict?_eq_ok_iff hminus).1 hstrict
    have hsign := h.sign
    rw [trimBy_eq_self fun c hc => isSpace_of_isDigit (hdigits c hc)] at hsign
    rcases eq_of_splitSign hsign with heq | heq
    · rw [heq]
    · exact absurd (hdigits '+' (by simp [heq])) (by decide)
  | error e =>
    cases e with
    | tooLong k =>
      -- grouped digits are not too many, so this is not why the strict form is refused
      have hlong := lt_of_strict?_tooLong hminus hstrict
      rw [filter_isDigit_of_sign h.sign] at hlong
      exact absurd h.short (Nat.not_le.2 hlong)
    | malformed =>
      -- without margin, sign, zeros and underscores the strict form is left
      obtain ⟨hu, hvalue⟩ := isStrict_of_isGrouped h hpos
      have hpoint : '.' ∉ cs.dropWhile isFiller := fun hc =>
        absurd (h.digits '.' ((List.dropWhile_suffix isFiller).subset hc)) (by decide)
      have hdigit := head?_isDigit h.nonempty h.digits h.joins
      have hunsigned : unsigned? (trimBy isSpace s.toList) = some cs := by
        rcases eq_of_splitSign h.sign with heq | heq
        · rw [heq]
          exact unsigned?_of_head fun hhead => by rw [hhead] at hdigit; exact nomatch hdigit
        · rw [heq]
          exact unsigned?_plus fun hhead => by rw [hhead] at hdigit; exact nomatch hdigit
      rw [tidied?_eq, hunsigned, Option.bind_some, unpadded?_of_isGrouped h hpos, Option.bind_some, dropFraction_eq_self hpoint]
      have hhead : (dropUnderscores (cs.dropWhile isFiller)).head? ≠ some '-' := fun hhead =>
        absurd (hu.digits '-' (List.mem_of_head? hhead)) (by decide)
      exact (strict?_eq_ok_iff hhead).2 ⟨hu, hvalue.symm⟩

/-- A positive integer in data is written in ASCII, but for its margin. -/
theorem mem_of_read? (hpos : 1 ≤ i) (h : read? s.toList = .ok i) : ∀ c ∈ s.toList, isSpace c = true ∨ c.toNat < 128 := by
  have hdigit {c : Char} (h : c.isDigit = true) : c.toNat < 128 := by
    have := toNat_of_isDigit h
    omega
  intro c hc
  rcases of_read? h with hi | ⟨cs, u, hcs, hu, hi⟩
  · exact .inr (hdigit ((isStrict_of_pos hi hpos).1.digits c hc))
  -- the character is followed through what is taken off
  · rcases mem_of_unsigned? hcs hc with hspace | rfl | hc
    · exact .inl hspace
    · exact .inr (by decide)
    right
    rcases mem_of_unpadded? hu hc with hc | rfl | rfl
    · rcases mem_of_dropFraction c hc with hc | rfl | rfl
      · rcases (of_dropUnderscores hi hpos).1 c hc with hc | rfl
        · exact hdigit hc
        · decide
      · decide
      · decide
    · decide
    · decide

end IntegerText

end VirtualTopology
