import VirtualTopology.Number.Refusal
import VirtualTopology.Proofs.Text.Grouping

/-!
# Two readers of decimal numbers

A decimal number is read in two ways, by itself (`Binary64.ofText?`) and as a text in data (`Binary64.ofDataText?`). In data
underscores are taken out before the number is read, wherever they stand, and by itself they are passed over between digits.
That comes to the same number where they stand between digits (`Decimal.read?_ungrouped`), and by itself a number has no other
underscores (`Decimal.of_read?`).

So a finite number without digits of other scripts is read in both ways or in neither, unless a text with underscores has a
margin, which data does not allow, or has them in other places (`Binary64.ofDataText?_iff`).
-/

namespace VirtualTopology

open Text

namespace Decimal

variable {cs rest : List Char} {ds : List Nat} {c : Char} {d : Nat} {after negative : Bool} {x : Binary64}
  {v v' : Char → Option Nat}

/-- Whether a number is neither infinite nor none. -/
def IsFinite (x : Binary64) : Prop := ∃ negative mantissa exponent, x = .finite negative mantissa exponent

/-! ### The parts of a number -/

/-- The digits behind a point, if there is one. -/
def fraction (v : Char → Option Nat) : List Char → List Nat × List Char
  | '.' :: rest => splitDigits v rest
  | rest => ([], rest)

/-- Read a number that is not one of the words. -/
def numeral? (v : Char → Option Nat) (negative : Bool) (cs : List Char) : Option Binary64 :=
  let (whole, rest) := splitDigits v cs
  let (behind, rest) := fraction v rest
  if whole.isEmpty && behind.isEmpty then none
  else (exponent? v rest).map fun e => .ofDecimal negative (ofDigits (whole ++ behind)) (e - behind.length)

theorem read?_eq (v : Char → Option Nat) (cs : List Char) : read? v cs =
    (special? (splitSign cs).1 (splitSign cs).2).or (numeral? v (splitSign cs).1 (splitSign cs).2) := by
  unfold read?
  dsimp only
  cases special? (splitSign cs).1 (splitSign cs).2 with
  | some x => rfl
  | none => rfl

theorem not_isFinite_of_special? (h : special? negative cs = some x) : ¬ IsFinite x := by
  unfold special? at h
  split at h
  · rintro ⟨n, m, e, rfl⟩; exact nomatch Option.some.inj h
  · rintro ⟨n, m, e, rfl⟩; exact nomatch Option.some.inj h
  · rintro ⟨n, m, e, rfl⟩; exact nomatch Option.some.inj h
  · exact nomatch h

/-- A finite number is none of the words. -/
theorem numeral?_of_read? (hx : IsFinite x) (h : read? v cs = some x) :
    special? (splitSign cs).1 (splitSign cs).2 = none ∧ numeral? v (splitSign cs).1 (splitSign cs).2 = some x := by
  rw [read?_eq] at h
  cases hspecial : special? (splitSign cs).1 (splitSign cs).2 with
  | some y =>
    rw [hspecial, Option.some_or] at h
    exact absurd hx (not_isFinite_of_special? (hspecial.trans h))
  | none =>
    rw [hspecial, Option.none_or] at h
    exact ⟨rfl, h⟩

/-! ### The same digits -/

theorem splitDigits_cons (h : v c = some d) (hhead : cs.head? ≠ some '_') :
    splitDigits v (c :: cs) = (d :: (splitDigits v cs).1, (splitDigits v cs).2) := by
  cases cs with
  | nil => simp [splitDigits, h]
  | cons c' cs =>
    have hc' : c' ≠ '_' := fun heq => hhead (heq ▸ rfl)
    rw [splitDigits, h]
    simp

theorem splitDigits_underscore (h : v c = some d) : splitDigits v (c :: '_' :: cs) =
    if (splitDigits v cs).1 = [] then ([d], '_' :: cs) else (d :: (splitDigits v cs).1, (splitDigits v cs).2) := by
  rw [splitDigits, h]
  rcases hsplit : splitDigits v cs with ⟨_ | ⟨e, ds⟩, tail⟩ <;> simp [hsplit]

theorem splitDigits_of_none (h : v c = none) : splitDigits v (c :: cs) = ([], c :: cs) := by
  rw [splitDigits, h]

/-- Digits are split off one by one, or together with the underscore behind them. -/
theorem splitDigits_induction (v : Char → Option Nat) {p : List Char → Prop} (nil : p [])
    (other : ∀ c cs, v c = none → p (c :: cs))
    (digit : ∀ c d cs, v c = some d → cs.head? ≠ some '_' → p cs → p (c :: cs))
    (underscore : ∀ c d cs, v c = some d → p cs → p (c :: '_' :: cs)) (cs : List Char) : p cs := by
  fun_induction splitDigits v cs with
  | case1 => exact nil
  | case2 c cs hc => exact other c cs hc
  | case3 c d hc rest _ _ ih => exact underscore c d rest hc ih
  | case4 c d hc rest _ _ _ _ ih => exact underscore c d rest hc ih
  | case5 c d hc => exact digit c d [] hc nofun nil
  | case6 c d hc c' rest hc' _ _ _ ih => exact digit c d (c' :: rest) hc (fun h => hc' (Option.some.inj h)) ih

theorem splitDigits_congr (h : ∀ c ∈ cs, v c = v' c) : splitDigits v cs = splitDigits v' cs := by
  -- the same values cut the digits off at the same place
  induction cs using splitDigits_induction v with
  | nil => rfl
  | other c cs hc => rw [splitDigits_of_none hc, splitDigits_of_none ((h c List.mem_cons_self).symm.trans hc)]
  | digit c d cs hc hhead ih =>
    rw [List.forall_mem_cons] at h
    rw [splitDigits_cons hc hhead, splitDigits_cons (h.1.symm.trans hc) hhead, ih h.2]
  | underscore c d cs hc ih =>
    rw [List.forall_mem_cons, List.forall_mem_cons] at h
    rw [splitDigits_underscore hc, splitDigits_underscore (h.1.symm.trans hc), ih h.2.2]

theorem mem_of_mem_splitDigits (v : Char → Option Nat) : ∀ c ∈ (splitDigits v cs).2, c ∈ cs := by
  induction cs using splitDigits_induction v with
  | nil => simp [splitDigits]
  | other c cs hc => rw [splitDigits_of_none hc]; exact fun _ => id
  | digit c d cs hc hhead ih =>
    rw [splitDigits_cons hc hhead]
    exact fun e he => List.mem_cons_of_mem _ (ih e he)
  | underscore c d cs hc ih =>
    rw [splitDigits_underscore hc]
    split
    · exact fun e he => List.mem_cons_of_mem _ he
    · exact fun e he => List.mem_cons_of_mem _ (List.mem_cons_of_mem _ (ih e he))

theorem mem_of_mem_splitSign : ∀ c ∈ (splitSign cs).2, c ∈ cs := by
  unfold splitSign
  split
  · exact fun c hc => List.mem_cons_of_mem _ hc
  · exact fun c hc => List.mem_cons_of_mem _ hc
  · exact fun c hc => hc

theorem exponent?_congr (h : ∀ c ∈ cs, v c = v' c) : exponent? v cs = exponent? v' cs := by
  cases cs with
  | nil => rfl
  | cons c cs =>
    rw [List.forall_mem_cons] at h
    rw [exponent?, exponent?]
    dsimp only
    rw [splitDigits_congr fun e he => h.2 e (mem_of_mem_splitSign e he)]

theorem fraction_congr (h : ∀ c ∈ cs, v c = v' c) : fraction v cs = fraction v' cs := by
  unfold fraction
  split
  · exact splitDigits_congr fun e he => h e (List.mem_cons_of_mem _ he)
  · rfl

theorem mem_of_mem_fraction (v : Char → Option Nat) : ∀ c ∈ (fraction v cs).2, c ∈ cs := by
  unfold fraction
  split
  · exact fun c hc => List.mem_cons_of_mem _ (mem_of_mem_splitDigits v c hc)
  · exact fun c hc => hc

/-- **Digits are read alike** if they have the same values. -/
theorem read?_congr (h : ∀ c ∈ cs, v c = v' c) : read? v cs = read? v' cs := by
  -- each part is read of what the part before it leaves, which are characters of the whole
  have hsign : ∀ c ∈ (splitSign cs).2, v c = v' c := fun c hc => h c (mem_of_mem_splitSign c hc)
  have hwhole : ∀ c ∈ (splitDigits v' (splitSign cs).2).2, v c = v' c := fun c hc =>
    hsign c (mem_of_mem_splitDigits v' c hc)
  have hrest : ∀ c ∈ (fraction v' (splitDigits v' (splitSign cs).2).2).2, v c = v' c := fun c hc =>
    hwhole c (mem_of_mem_fraction v' c hc)
  rw [read?_eq, read?_eq, numeral?, numeral?, splitDigits_congr hsign]
  dsimp only
  rw [fraction_congr hwhole, exponent?_congr hrest]

/-! ### Underscores between digits -/

theorem head?_of_splitDigits (h : (splitDigits asciiDigit? cs).1 ≠ []) : cs.head?.any Char.isDigit = true := by
  cases cs with
  | nil => exact absurd rfl h
  | cons c cs =>
    cases hc : asciiDigit? c with
    | none => rw [splitDigits_of_none hc] at h; exact absurd rfl h
    | some d =>
      rw [List.head?_cons, Option.any_some, ← isSome_asciiDigit?, hc]
      rfl

theorem splitDigits_of_head? (h : cs.head?.any Char.isDigit = true) : (splitDigits asciiDigit? cs).1 ≠ [] := by
  cases cs with
  | nil => exact nomatch h
  | cons c cs =>
    rw [List.head?_cons, Option.any_some, ← isSome_asciiDigit?] at h
    obtain ⟨d, hd⟩ := Option.isSome_iff_exists.1 h
    by_cases hhead : cs.head? = some '_'
    · obtain ⟨tail, rfl⟩ := List.head?_eq_some_iff.1 hhead
      rw [splitDigits_underscore hd]
      split <;> exact List.cons_ne_nil _ _
    · rw [splitDigits_cons hd hhead]
      exact List.cons_ne_nil _ _

theorem isDigit_of_asciiDigit? (h : asciiDigit? c = some d) : c.isDigit = true := by
  rw [← isSome_asciiDigit?, h]
  rfl

/-- Underscores among digits that are split off stand between them. -/
theorem joinsFrom_of_splitDigits (h : joinsFrom false (splitDigits asciiDigit? cs).2 = true) : joinsFrom false cs = true := by
  induction cs using splitDigits_induction asciiDigit? with
  | nil => rfl
  | other c cs hc => rwa [splitDigits_of_none hc] at h
  | digit c d cs hc hhead ih =>
    rw [splitDigits_cons hc hhead] at h
    rw [joinsFrom_cons (ne_underscore (isDigit_of_asciiDigit? hc)), joinsFrom_of_head hhead]
    exact ih h
  | underscore c d cs hc ih =>
    rw [splitDigits_underscore hc] at h
    split at h
    · -- no digit follows the underscore, so it was left behind, and what is left does not join
      exact absurd rfl (head?_ne_of_joins h)
    · next hne =>
      -- it was taken with the digit in front of it because of the digit behind it
      have hdigit := isDigit_of_asciiDigit? hc
      rw [joinsFrom_cons (ne_underscore hdigit), joinsFrom_underscore, hdigit, head?_of_splitDigits hne, ih h]
      rfl

/-- What is left behind digits joins if the whole does, and the digits are the same without underscores. -/
theorem splitDigits_ungrouped (h : joinsFrom false cs = true) : joinsFrom false (splitDigits asciiDigit? cs).2 = true ∧
    splitDigits asciiDigit? (ungrouped cs) =
      ((splitDigits asciiDigit? cs).1, ungrouped (splitDigits asciiDigit? cs).2) := by
  induction cs using splitDigits_induction asciiDigit? with
  | nil => exact ⟨rfl, rfl⟩
  | other c cs hc =>
    have hne : c ≠ '_' := fun heq => head?_ne_of_joins h (heq ▸ rfl)
    rw [splitDigits_of_none hc, ungrouped_cons hne, splitDigits_of_none hc]
    exact ⟨h, rfl⟩
  | digit c d cs hc hhead ih =>
    have hne := ne_underscore (isDigit_of_asciiDigit? hc)
    rw [joinsFrom_cons hne, joinsFrom_of_head hhead] at h
    obtain ⟨hjoins, hsplit⟩ := ih h
    rw [ungrouped_cons hne, splitDigits_cons hc (head?_ungrouped cs), splitDigits_cons hc hhead, hsplit]
    exact ⟨hjoins, rfl⟩
  | underscore c d cs hc ih =>
    have hne := ne_underscore (isDigit_of_asciiDigit? hc)
    rw [joinsFrom_cons hne, joinsFrom_underscore, Bool.and_eq_true, Bool.and_eq_true] at h
    obtain ⟨hjoins, hsplit⟩ := ih h.2
    -- a digit follows the underscore, so the digits behind it are not empty
    rw [ungrouped_cons hne, ungrouped_underscore, splitDigits_cons hc (head?_ungrouped cs), splitDigits_underscore hc,
      if_neg (splitDigits_of_head? h.1.2), hsplit]
    exact ⟨hjoins, rfl⟩

theorem splitSign_eq (cs : List Char) : (splitSign cs).2 = cs ∨ ∃ c, (c = '-' ∨ c = '+') ∧ cs = c :: (splitSign cs).2 := by
  unfold splitSign
  split
  · exact .inr ⟨'-', .inl rfl, rfl⟩
  · exact .inr ⟨'+', .inr rfl, rfl⟩
  · exact .inl rfl

theorem joinsFrom_splitSign (cs : List Char) : joinsFrom false (splitSign cs).2 = joinsFrom false cs := by
  rcases splitSign_eq cs with heq | ⟨c, rfl | rfl, heq⟩
  · rw [heq]
  · rw [heq]
    rfl
  · rw [heq]
    rfl

theorem splitSign_ungrouped (h : joinsFrom false cs = true) :
    splitSign (ungrouped cs) = ((splitSign cs).1, ungrouped (splitSign cs).2) := by
  cases cs with
  | nil => rfl
  | cons c cs =>
    have hne : c ≠ '_' := fun heq => head?_ne_of_joins h (heq ▸ rfl)
    rw [ungrouped_cons hne]
    unfold splitSign
    split
    · next heq =>
      obtain ⟨rfl, rfl⟩ := List.cons.inj heq
      rfl
    · next heq =>
      obtain ⟨rfl, rfl⟩ := List.cons.inj heq
      rfl
    · next hminus hplus =>
      have hminus : c ≠ '-' := fun heq => hminus _ (by rw [heq])
      have hplus : c ≠ '+' := fun heq => hplus _ (by rw [heq])
      simp [ungrouped_cons hne, hminus, hplus]

theorem fraction_ungrouped (h : joinsFrom false cs = true) : joinsFrom false (fraction asciiDigit? cs).2 = true ∧
    fraction asciiDigit? (ungrouped cs) = ((fraction asciiDigit? cs).1, ungrouped (fraction asciiDigit? cs).2) := by
  cases cs with
  | nil => exact ⟨rfl, rfl⟩
  | cons c cs =>
    have hne : c ≠ '_' := fun heq => head?_ne_of_joins h (heq ▸ rfl)
    rw [ungrouped_cons hne]
    by_cases hpoint : c = '.'
    · subst hpoint
      rw [joinsFrom_cons hne] at h
      exact splitDigits_ungrouped h
    · simp [fraction, hpoint, h, ungrouped_cons hne]

theorem exponent?_ungrouped (h : joinsFrom false cs = true) :
    exponent? asciiDigit? (ungrouped cs) = exponent? asciiDigit? cs := by
  cases cs with
  | nil => rfl
  | cons c cs =>
    have hne : c ≠ '_' := fun heq => head?_ne_of_joins h (heq ▸ rfl)
    rw [ungrouped_cons hne, exponent?, exponent?]
    split
    · next hletter =>
      have hc : c.isDigit = false := by rcases hletter with rfl | rfl <;> rfl
      rw [joinsFrom_cons hne, hc] at h
      obtain ⟨hjoins, hsplit⟩ := splitDigits_ungrouped (joinsFrom_splitSign cs ▸ h)
      rw [splitSign_ungrouped h]
      dsimp only
      rw [hsplit]
      -- an exponent has digits and nothing behind them, with underscores as without them
      generalize splitDigits asciiDigit? (splitSign cs).2 = parts at hjoins ⊢
      obtain ⟨_ | ⟨d, ds⟩, _ | ⟨e, tail⟩⟩ := parts
      · rfl
      · rfl
      · rfl
      · have hne : e ≠ '_' := fun heq => head?_ne_of_joins hjoins (heq ▸ rfl)
        simp [ungrouped_cons hne]
    · rfl

/-- **Underscores between digits do not matter** for the number that is read. -/
theorem numeral?_ungrouped (h : joinsFrom false cs = true) :
    numeral? asciiDigit? negative (ungrouped cs) = numeral? asciiDigit? negative cs := by
  obtain ⟨hwhole, hsplit⟩ := splitDigits_ungrouped h
  obtain ⟨hbehind, hfraction⟩ := fraction_ungrouped hwhole
  rw [numeral?, numeral?, hsplit]
  dsimp only
  rw [hfraction]
  dsimp only
  rw [exponent?_ungrouped hbehind]

/-! ### What a number consists of -/

/-- Whether a character stands in ASCII, and not for a space. -/
def IsVisible (c : Char) : Prop := c.toNat < 128 ∧ isSpace c = false

theorem isVisible_of_isDigit (h : c.isDigit = true) : IsVisible c := by
  refine ⟨?_, isSpace_of_isDigit h⟩
  have := toNat_of_isDigit h
  omega

theorem isVisible_of_splitDigits (h : ∀ c ∈ (splitDigits asciiDigit? cs).2, IsVisible c) : ∀ c ∈ cs, IsVisible c := by
  induction cs using splitDigits_induction asciiDigit? with
  | nil => nofun
  | other c cs hc => rwa [splitDigits_of_none hc] at h
  | digit c d cs hc hhead ih =>
    rw [splitDigits_cons hc hhead] at h
    exact List.forall_mem_cons.2 ⟨isVisible_of_isDigit (isDigit_of_asciiDigit? hc), ih h⟩
  | underscore c d cs hc ih =>
    rw [splitDigits_underscore hc] at h
    have hdigit := isVisible_of_isDigit (isDigit_of_asciiDigit? hc)
    split at h
    · exact List.forall_mem_cons.2 ⟨hdigit, h⟩
    · exact List.forall_mem_cons.2 ⟨hdigit, List.forall_mem_cons.2 ⟨⟨by decide, rfl⟩, ih h⟩⟩

theorem isVisible_of_splitSign (h : ∀ c ∈ (splitSign cs).2, IsVisible c) : ∀ c ∈ cs, IsVisible c := by
  rcases splitSign_eq cs with heq | ⟨c, hc, heq⟩
  · rwa [heq] at h
  · rw [heq]
    refine List.forall_mem_cons.2 ⟨?_, h⟩
    rcases hc with rfl | rfl <;> exact ⟨by decide, rfl⟩

/-- An exponent that is read is visible, and underscores in it stand between digits. -/
theorem of_exponent? {e : Int} (h : exponent? asciiDigit? cs = some e) :
    joinsFrom false cs = true ∧ ∀ c ∈ cs, IsVisible c := by
  cases cs with
  | nil => exact ⟨rfl, List.forall_mem_nil _⟩
  | cons c cs =>
    rw [exponent?] at h
    split at h
    · next hletter =>
      dsimp only at h
      split at h
      · next d ds heq =>
        have hrest : (splitDigits asciiDigit? (splitSign cs).2).2 = [] := by rw [heq]
        have hjoins : joinsFrom false cs = true := by
          rw [← joinsFrom_splitSign]
          exact joinsFrom_of_splitDigits (by rw [hrest]; rfl)
        have hvisible : ∀ c ∈ cs, IsVisible c :=
          isVisible_of_splitSign (isVisible_of_splitDigits (by rw [hrest]; exact List.forall_mem_nil _))
        rcases hletter with rfl | rfl
        · exact ⟨hjoins, List.forall_mem_cons.2 ⟨⟨by decide, rfl⟩, hvisible⟩⟩
        · exact ⟨hjoins, List.forall_mem_cons.2 ⟨⟨by decide, rfl⟩, hvisible⟩⟩
      · cases h
    · cases h

theorem of_fraction (hjoins : joinsFrom false (fraction asciiDigit? cs).2 = true)
    (hvisible : ∀ c ∈ (fraction asciiDigit? cs).2, IsVisible c) : joinsFrom false cs = true ∧ ∀ c ∈ cs, IsVisible c := by
  cases cs with
  | nil => exact ⟨hjoins, hvisible⟩
  | cons c cs =>
    by_cases hpoint : c = '.'
    · subst hpoint
      have hcs : joinsFrom false cs = true := joinsFrom_of_splitDigits hjoins
      exact ⟨hcs, List.forall_mem_cons.2 ⟨⟨by decide, rfl⟩, isVisible_of_splitDigits hvisible⟩⟩
    · have hnone : fraction asciiDigit? (c :: cs) = ([], c :: cs) := by simp [fraction, hpoint]
      rw [hnone] at hjoins hvisible
      exact ⟨hjoins, hvisible⟩

/-- **A finite number is visible, and underscores in it stand between digits.** -/
theorem of_read? (hx : IsFinite x) (h : read? asciiDigit? cs = some x) :
    joinsFrom false cs = true ∧ ∀ c ∈ cs, IsVisible c := by
  obtain ⟨-, hnumeral⟩ := numeral?_of_read? hx h
  unfold numeral? at hnumeral
  dsimp only at hnumeral
  split at hnumeral
  · exact nomatch hnumeral
  · obtain ⟨e, he, -⟩ := Option.map_eq_some_iff.1 hnumeral
    -- from the last part to the first: each part is digits in front of what is known already
    obtain ⟨hjoins, hvisible⟩ := of_exponent? he
    obtain ⟨hjoins, hvisible⟩ := of_fraction hjoins hvisible
    refine ⟨?_, isVisible_of_splitSign (isVisible_of_splitDigits hvisible)⟩
    rw [← joinsFrom_splitSign]
    exact joinsFrom_of_splitDigits hjoins

theorem exists_letter_of_special? (h : special? negative cs = some x) :
    ∃ c rest, cs = c :: rest ∧ (c.toLower = 'i' ∨ c.toLower = 'n') := by
  have hfirst {w : List Char} {l : Char} (hw : cs.map Char.toLower = l :: w) (hl : l = 'i' ∨ l = 'n') :
      ∃ c rest, cs = c :: rest ∧ (c.toLower = 'i' ∨ c.toLower = 'n') := by
    cases cs with
    | nil => exact nomatch hw
    | cons c rest => exact ⟨c, rest, rfl, (List.cons.inj hw).1 ▸ hl⟩
  unfold special? at h
  split at h
  · next heq => exact hfirst (String.ofList_injective heq) (.inl rfl)
  · next heq => exact hfirst (String.ofList_injective heq) (.inl rfl)
  · next heq => exact hfirst (String.ofList_injective heq) (.inr rfl)
  · exact nomatch h

theorem toLower_of_isDigit (h : c.isDigit = true) : c.toLower = c := by
  have hbounds := toNat_of_isDigit h
  have hcapital : ¬ ('A'.val ≤ c.val ∧ c.val ≤ 'Z'.val) := by
    rintro ⟨hcapital, -⟩
    have hcapital : 65 ≤ c.toNat := hcapital
    omega
  exact dif_neg hcapital

/-- A word begins with a letter, and so does no other number. -/
theorem special?_of_numeral? (h : numeral? asciiDigit? negative cs = some x) : special? negative cs = none := by
  rw [← Option.not_isSome_iff_eq_none, Option.isSome_iff_exists]
  rintro ⟨y, hspecial⟩
  obtain ⟨c, rest, rfl, hletter⟩ := exists_letter_of_special? hspecial
  have hnone : asciiDigit? c = none := by
    rw [asciiDigit?_eq_none_iff, ← Bool.not_eq_true]
    intro hdigit
    rw [toLower_of_isDigit hdigit] at hletter
    rcases hletter with rfl | rfl <;> exact nomatch hdigit
  have hpoint : c ≠ '.' := by
    rintro rfl
    rcases hletter with heq | heq <;> exact nomatch heq
  have hfraction : fraction asciiDigit? (c :: rest) = ([], c :: rest) := by simp [fraction, hpoint]
  rw [numeral?, splitDigits_of_none hnone] at h
  dsimp only at h
  rw [hfraction] at h
  exact nomatch h

theorem read?_eq_some_iff (hx : IsFinite x) : read? asciiDigit? cs = some x ↔
    numeral? asciiDigit? (splitSign cs).1 (splitSign cs).2 = some x := by
  refine ⟨fun h => (numeral?_of_read? hx h).2, fun h => ?_⟩
  rw [read?_eq, special?_of_numeral? h, Option.none_or, h]

/-- **A finite number is read without its underscores** as with them, if these stand between digits. -/
theorem read?_ungrouped (hx : IsFinite x) (h : joinsFrom false cs = true) :
    read? asciiDigit? (ungrouped cs) = some x ↔ read? asciiDigit? cs = some x := by
  rw [read?_eq_some_iff hx, read?_eq_some_iff hx, splitSign_ungrouped h]
  dsimp only
  rw [numeral?_ungrouped (joinsFrom_splitSign cs ▸ h)]

end Decimal

namespace Binary64

open Decimal

variable {s : String} {x : Binary64}

theorem mem_of_mem_trimBy {p : Char → Bool} {cs : List Char} : ∀ c ∈ trimBy p cs, c ∈ cs := by
  obtain ⟨before, behind, heq, -, -⟩ := exists_trimBy p cs
  intro c hc
  rw [heq]
  simp [hc]

/-- **By itself a number is read in ASCII** if it has no digits of other scripts. -/
theorem ofText?_eq (h : ∀ c ∈ s.toList, isForeign c = false) :
    ofText? s = read? asciiDigit? (trimBy isSpace s.toList) :=
  read?_congr fun c hc => digit?_of_not_isForeign (h c (mem_of_mem_trimBy c hc))

theorem isVisible_or_isSpace (hx : IsFinite x) (h : read? asciiDigit? (trimBy isSpace s.toList) = some x) :
    ∀ c ∈ s.toList, IsVisible c ∨ isSpace c = true := by
  obtain ⟨before, behind, heq, hbefore, hbehind⟩ := exists_trimBy isSpace s.toList
  intro c hc
  rw [heq, List.mem_append, List.mem_append] at hc
  rcases hc with (hc | hc) | hc
  · exact .inr (hbefore c hc)
  · exact .inl ((of_read? hx h).2 c hc)
  · exact .inr (hbehind c hc)

theorem withoutUnderscores?_eq_some {cs ds : List Char} (h : withoutUnderscores? cs = some ds) : ds = ungrouped cs := by
  unfold withoutUnderscores? at h
  dsimp only at h
  split at h
  · exact nomatch h
  · rw [← Option.some.inj h, flatten_splitOn]

theorem withoutUnderscores?_of_joins {cs : List Char} (hne : cs ≠ []) (h : joinsFrom false cs = true) :
    withoutUnderscores? cs = some (ungrouped cs) := by
  unfold withoutUnderscores?
  dsimp only
  rw [any_isEmpty_splitOn hne h, flatten_splitOn]
  rfl

/-- A number in data is read within its margin, or without its underscores. -/
theorem ofDataText?_eq_some (h : ofDataText? s = some x) :
    '_' ∉ trimBy isSpace s.toList ∧ read? asciiDigit? (trimBy isSpace s.toList) = some x ∨
      read? asciiDigit? (ungrouped s.toList) = some x := by
  unfold ofDataText? at h
  dsimp only at h
  -- only a text without underscores is read within its margin first
  by_cases hplain : '_' ∈ trimBy isSpace s.toList
  · rw [if_pos (List.contains_iff_mem.2 hplain)] at h
    obtain ⟨ds, hds, h⟩ := Option.bind_eq_some_iff.1 h
    obtain rfl := withoutUnderscores?_eq_some hds
    split at h
    · exact nomatch h
    · exact .inr h
  · rw [if_neg (mt List.contains_iff_mem.1 hplain)] at h
    cases hread : read? asciiDigit? (trimBy isSpace s.toList) with
    | some y =>
      rw [hread] at h
      exact .inl ⟨hplain, h⟩
    | none =>
      rw [hread] at h
      obtain ⟨ds, hds, h⟩ := Option.bind_eq_some_iff.1 h
      obtain rfl := withoutUnderscores?_eq_some hds
      split at h
      · exact nomatch h
      · exact .inr h

/-- A finite number in data is written in ASCII, but for its margin. -/
theorem mem_of_ofDataText? (hx : IsFinite x) (h : ofDataText? s = some x) :
    ∀ c ∈ s.toList, IsVisible c ∨ isSpace c = true := by
  rcases ofDataText?_eq_some h with ⟨-, hread⟩ | hread
  · exact isVisible_or_isSpace hx hread
  · intro c hc
    by_cases hunderscore : c = '_'
    · subst hunderscore
      exact .inl ⟨by decide, rfl⟩
    · exact .inl ((of_read? hx hread).2 c (mem_ungrouped_iff.2 ⟨hc, hunderscore⟩))

theorem underscore_mem_trimBy_iff : '_' ∈ trimBy isSpace s.toList ↔ '_' ∈ s.toList := by
  refine ⟨mem_of_mem_trimBy '_', fun h => ?_⟩
  obtain ⟨before, behind, heq, hbefore, hbehind⟩ := exists_trimBy isSpace s.toList
  rw [heq, List.mem_append, List.mem_append] at h
  rcases h with (h | h) | h
  · exact absurd (hbefore _ h) (by decide)
  · exact h
  · exact absurd (hbehind _ h) (by decide)

/-- A finite number in data with underscores has no margin. -/
theorem trimBy_of_ofDataText? (hx : IsFinite x) (h : ofDataText? s = some x) (hunderscore : '_' ∈ s.toList) :
    trimBy isSpace s.toList = s.toList := by
  rcases ofDataText?_eq_some h with ⟨hplain, -⟩ | hread
  · exact absurd (underscore_mem_trimBy_iff.2 hunderscore) hplain
  · refine trimBy_eq_self fun c hc => ?_
    by_cases hc' : c = '_'
    · rw [hc']
      rfl
    · exact ((of_read? hx hread).2 c (mem_ungrouped_iff.2 ⟨hc, hc'⟩)).2

/-- **A finite number with underscores between digits** is read in data as by itself, unless it has a margin and underscores. -/
theorem ofDataText?_iff (hx : IsFinite x) : ofDataText? s = some x ∧ Joins s ↔
    read? asciiDigit? (trimBy isSpace s.toList) = some x ∧ ('_' ∈ s.toList → trimBy isSpace s.toList = s.toList) := by
  constructor
  · rintro ⟨h, hjoins⟩
    refine ⟨?_, trimBy_of_ofDataText? hx h⟩
    rcases ofDataText?_eq_some h with ⟨-, hread⟩ | hread
    · exact hread
    · rw [read?_ungrouped hx hjoins] at hread
      rwa [trimBy_eq_self fun c hc => ((of_read? hx hread).2 c hc).2]
  · rintro ⟨hread, hmargin⟩
    have hjoins : Joins s := by
      rw [Joins, ← joinsFrom_trimBy]
      exact (of_read? hx hread).1
    refine ⟨?_, hjoins⟩
    unfold ofDataText?
    dsimp only
    by_cases hunderscore : '_' ∈ s.toList
    · -- a text with underscores has no margin that could be in the way
      rw [hmargin hunderscore] at hread ⊢
      have hnone : ¬ (ungrouped s.toList).contains '_' = true := by simp
      have hne : s.toList ≠ [] := List.ne_nil_of_mem hunderscore
      rw [if_pos (List.contains_iff_mem.2 hunderscore), withoutUnderscores?_of_joins hne hjoins]
      show (if (ungrouped s.toList).contains '_' then none else read? asciiDigit? (ungrouped s.toList)) = some x
      rw [if_neg hnone, read?_ungrouped hx hjoins, hread]
    · rw [if_neg (mt List.contains_iff_mem.1 (mt underscore_mem_trimBy_iff.1 hunderscore)), hread]
      rfl

end Binary64

end VirtualTopology
