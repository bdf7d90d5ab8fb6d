import VirtualTopology.Number.Decimal
import VirtualTopology.Proofs.Text.Numeral

/-!
# Digits and what stands between them

Underscores may stand between the digits of a number (`Joins`). Where they do, digits are grouped, and are read in their
order (`grouped?_eq_some_iff`), and a text that is cut at its underscores has no empty words (`any_isEmpty_splitOn`).

The margin of a text has neither digits nor underscores, so that it can be left out of the question (`exists_margins`).
-/

namespace VirtualTopology

namespace Text

variable {cs pre : List Char} {ds : List Nat} {c : Char} {after : Bool}

/-! ### Digits and what stands between them -/

/-- Whether each underscore stands between two digits; `after` says whether a digit stands in front. -/
def joinsFrom (after : Bool) : List Char → Bool
  | [] => true
  | c :: cs =>
      if c = '_' then after && cs.head?.any Char.isDigit && joinsFrom false cs else joinsFrom c.isDigit cs

/-- Whether each underscore in a text stands between two digits. -/
def Joins (s : String) : Prop := joinsFrom false s.toList = true

/-- Whether a character is a decimal digit of another script. -/
def isForeign (c : Char) : Bool := (digit? c).isSome && (asciiDigit? c).isNone

theorem isSome_asciiDigit? (c : Char) : (asciiDigit? c).isSome = c.isDigit := by
  rw [Bool.eq_iff_iff]
  unfold asciiDigit?
  constructor
  · intro h
    split at h
    · next hc => simpa [Char.isDigit, UInt32.le_iff_toNat_le] using hc
    · exact nomatch h
  · intro h
    rw [if_pos (toNat_of_isDigit h)]
    rfl

theorem asciiDigit?_eq_none_iff : asciiDigit? c = none ↔ c.isDigit = false := by
  rw [← isSome_asciiDigit?, Option.isSome_eq_false_iff, Option.isNone_iff_eq_none]

theorem digit?_of_not_isForeign (h : isForeign c = false) : digit? c = asciiDigit? c := by
  cases hascii : asciiDigit? c with
  | none => simpa [isForeign, hascii] using h
  | some d =>
    have hlt : c.toNat < 128 := by
      unfold asciiDigit? at hascii
      split at hascii
      · omega
      · exact nomatch hascii
    rw [digit?, if_pos hlt, hascii]

theorem isForeign_of_lt (h : c.toNat < 128) : isForeign c = false := by
  rw [isForeign, digit?, if_pos h]
  cases asciiDigit? c <;> rfl

theorem joinsFrom_cons (h : c ≠ '_') : joinsFrom after (c :: cs) = joinsFrom c.isDigit cs := by
  rw [joinsFrom, if_neg h]

theorem joinsFrom_underscore : joinsFrom after ('_' :: cs) = (after && cs.head?.any Char.isDigit && joinsFrom false cs) := by
  rw [joinsFrom, if_pos rfl]

/-- What stands in front matters for an underscore only. -/
theorem joinsFrom_of_head (h : cs.head? ≠ some '_') : joinsFrom after cs = joinsFrom false cs := by
  cases cs with
  | nil => rfl
  | cons c cs =>
    have hc : c ≠ '_' := fun heq => h (heq ▸ rfl)
    rw [joinsFrom_cons hc, joinsFrom_cons hc]

theorem head?_ne_of_joins (h : joinsFrom false cs = true) : cs.head? ≠ some '_' := by
  cases cs with
  | nil => nofun
  | cons c cs =>
    intro hc
    obtain rfl := Option.some.inj hc
    rw [joinsFrom_underscore] at h
    exact nomatch h

theorem ne_underscore (h : c.isDigit = true) : c ≠ '_' := by
  rintro rfl
  exact nomatch h

/-- Digits and underscores that join begin with a digit. -/
theorem head?_isDigit (hne : cs ≠ []) (hcs : ∀ c ∈ cs, c.isDigit = true ∨ c = '_') (hjoins : joinsFrom false cs = true) :
    cs.head?.any Char.isDigit = true := by
  cases cs with
  | nil => exact absurd rfl hne
  | cons c cs => exact (hcs c List.mem_cons_self).resolve_right fun heq => head?_ne_of_joins hjoins (heq ▸ rfl)

theorem not_groups (h : asciiDigit? c = none) : ¬ (c :: cs ≠ [] ∧ (∀ d ∈ c :: cs, d.isDigit = true ∨ d = '_') ∧
    joinsFrom false (c :: cs) = true ∧ (c :: cs).filterMap asciiDigit? = ds) := by
  rintro ⟨hne, hcs, hjoins, -⟩
  exact Bool.false_ne_true ((asciiDigit?_eq_none_iff.1 h).symm.trans (head?_isDigit hne hcs hjoins))

/-- **Grouped digits** are digits with underscores between them, and are read in their order. -/
theorem grouped?_eq_some_iff : grouped? asciiDigit? cs = some ds ↔
    cs ≠ [] ∧ (∀ c ∈ cs, c.isDigit = true ∨ c = '_') ∧ joinsFrom false cs = true ∧ cs.filterMap asciiDigit? = ds := by
  -- a last digit, a digit with an underscore behind it, or a digit with another one behind it
  fun_induction grouped? asciiDigit? cs generalizing ds with
  | case1 => simp
  | case2 c =>
    cases hc : asciiDigit? c with
    | none => exact iff_of_false (by simp) (not_groups hc)
    | some d =>
      have hdigit : c.isDigit = true := by rw [← isSome_asciiDigit?, hc]; rfl
      simp [hc, hdigit, joinsFrom, ne_underscore hdigit]
  | case3 c rest ih =>
    cases hc : asciiDigit? c with
    | none => exact iff_of_false (by simp) (not_groups hc)
    | some d =>
      have hdigit : c.isDigit = true := by rw [← isSome_asciiDigit?, hc]; rfl
      have hnone : asciiDigit? '_' = none := rfl
      rw [joinsFrom_cons (ne_underscore hdigit), joinsFrom_underscore, List.filterMap_cons_some hc,
        List.filterMap_cons_none hnone, hdigit]
      show (grouped? asciiDigit? rest).bind (fun ds => some (d :: ds)) = some ds ↔ _
      simp only [Option.bind_eq_some_iff, ih, Option.some.injEq, List.forall_mem_cons, Bool.and_eq_true]
      constructor
      · rintro ⟨_, ⟨hne, hrest, hjoins, rfl⟩, rfl⟩
        exact ⟨List.cons_ne_nil _ _, ⟨.inl hdigit, .inr trivial, hrest⟩, ⟨⟨trivial, head?_isDigit hne hrest hjoins⟩, hjoins⟩, rfl⟩
      · rintro ⟨-, ⟨-, -, hrest⟩, ⟨⟨-, hhead⟩, hjoins⟩, rfl⟩
        refine ⟨_, ⟨?_, hrest, hjoins, rfl⟩, rfl⟩
        rintro rfl
        exact Bool.false_ne_true hhead
  | case4 c rest hnil hhead ih =>
    cases hc : asciiDigit? c with
    | none => exact iff_of_false (by simp) (not_groups hc)
    | some d =>
      have hdigit : c.isDigit = true := by rw [← isSome_asciiDigit?, hc]; rfl
      have hother : rest.head? ≠ some '_' := by
        intro h
        obtain ⟨tail, rfl⟩ := List.head?_eq_some_iff.1 h
        exact hhead tail rfl
      rw [joinsFrom_cons (ne_underscore hdigit), joinsFrom_of_head hother, List.filterMap_cons_some hc]
      show (grouped? asciiDigit? rest).bind (fun ds => some (d :: ds)) = some ds ↔ _
      simp only [Option.bind_eq_some_iff, ih, Option.some.injEq, List.forall_mem_cons]
      constructor
      · rintro ⟨_, ⟨-, hrest, hjoins, rfl⟩, rfl⟩
        exact ⟨List.cons_ne_nil _ _, ⟨.inl hdigit, hrest⟩, hjoins, rfl⟩
      · rintro ⟨-, ⟨-, hrest⟩, hjoins, rfl⟩
        exact ⟨_, ⟨fun h => hnil h, hrest, hjoins, rfl⟩, rfl⟩

/-! ### Margins -/

theorem isDigit_of_isSpace (h : isSpace c = true) : c.isDigit = false := by
  rw [← Bool.not_eq_true]
  intro hdigit
  exact Bool.false_ne_true ((isSpace_of_isDigit hdigit).symm.trans h)

theorem ne_underscore_of_isSpace (h : isSpace c = true) : c ≠ '_' := by
  rintro rfl
  exact nomatch h

theorem isForeign_of_isSpace (h : isSpace c = true) : isForeign c = false := by
  by_cases hlt : c.toNat < 128
  · exact isForeign_of_lt hlt
  · -- the spaces beyond ASCII are few
    have hspace : c.toNat ∈ [0x85, 0xa0, 0x1680, 0x2000, 0x2001, 0x2002, 0x2003, 0x2004, 0x2005, 0x2006, 0x2007, 0x2008,
        0x2009, 0x200a, 0x2028, 0x2029, 0x202f, 0x205f, 0x3000] := by
      simp only [isSpace, Bool.or_eq_true, Bool.and_eq_true, decide_eq_true_eq, beq_iff_eq] at h
      simp only [List.mem_cons, List.not_mem_nil, or_false]
      omega
    have hnone : ∀ n ∈ [0x85, 0xa0, 0x1680, 0x2000, 0x2001, 0x2002, 0x2003, 0x2004, 0x2005, 0x2006, 0x2007, 0x2008,
        0x2009, 0x200a, 0x2028, 0x2029, 0x202f, 0x205f, 0x3000], zeros.find? (fun z => z ≤ n && n < z + 10) = none := by
      decide +kernel
    rw [isForeign, digit?, if_neg hlt, hnone _ hspace]
    rfl

theorem exists_trimBy (p : Char → Bool) (cs : List Char) : ∃ before behind, cs = before ++ trimBy p cs ++ behind ∧
    (∀ c ∈ before, p c = true) ∧ ∀ c ∈ behind, p c = true := by
  refine ⟨cs.takeWhile p, ((cs.dropWhile p).reverse.takeWhile p).reverse, ?_, fun c hc => List.mem_takeWhile_imp hc,
    fun c hc => List.mem_takeWhile_imp (List.mem_reverse.1 hc)⟩
  rw [trimBy, List.append_assoc, ← List.reverse_append, List.takeWhile_append_dropWhile, List.reverse_reverse,
    List.takeWhile_append_dropWhile]

/-- Whether a character is neither a digit nor stands between digits. -/
def IsApart (c : Char) : Prop := c ≠ '_' ∧ c.isDigit = false

theorem isApart_of_isSpace (h : isSpace c = true) : IsApart c := ⟨ne_underscore_of_isSpace h, isDigit_of_isSpace h⟩

theorem joinsFrom_before (h : ∀ c ∈ pre, IsApart c) : joinsFrom false (pre ++ cs) = joinsFrom false cs := by
  induction pre with
  | nil => rfl
  | cons c pre ih =>
    rw [List.forall_mem_cons] at h
    rw [List.cons_append, joinsFrom_cons h.1.1, h.1.2, ih h.2]

theorem joinsFrom_behind {behind : List Char} (h : ∀ c ∈ behind, IsApart c) :
    joinsFrom after (cs ++ behind) = joinsFrom after cs := by
  induction cs generalizing after with
  | nil =>
    rw [List.nil_append, joinsFrom_of_head]
    · -- the margin has no underscores, so it joins
      have hbehind : joinsFrom false (behind ++ []) = joinsFrom false [] := joinsFrom_before h
      simpa [joinsFrom] using hbehind
    · intro hhead
      obtain ⟨tail, rfl⟩ := List.head?_eq_some_iff.1 hhead
      exact (h '_' List.mem_cons_self).1 rfl
  | cons c cs ih =>
    by_cases hc : c = '_'
    · subst hc
      rw [List.cons_append, joinsFrom_underscore, joinsFrom_underscore, ih]
      cases cs with
      | cons d cs => rfl
      | nil =>
        cases behind with
        | nil => rfl
        | cons d behind => simp [(h d List.mem_cons_self).2]
    · rw [List.cons_append, joinsFrom_cons hc, joinsFrom_cons hc, ih]

/-- Underscores in a text join if they do in what is left of it without a margin. -/
theorem joinsFrom_trimBy (cs : List Char) : joinsFrom false (trimBy isSpace cs) = joinsFrom false cs := by
  obtain ⟨before, behind, heq, hbefore, hbehind⟩ := exists_trimBy isSpace cs
  have hwhole : joinsFrom false cs = joinsFrom false (before ++ (trimBy isSpace cs ++ behind)) := by
    rw [← List.append_assoc, ← heq]
  rw [hwhole, joinsFrom_before fun c hc => isApart_of_isSpace (hbefore c hc),
    joinsFrom_behind fun c hc => isApart_of_isSpace (hbehind c hc)]

theorem eq_of_splitSign {l : List Char} (h : splitSign l = (false, cs)) : l = cs ∨ l = '+' :: cs := by
  unfold splitSign at h
  split at h
  · exact nomatch h
  · exact .inr (congrArg _ (Prod.mk.inj h).2)
  · exact .inl (Prod.mk.inj h).2

/-- What is left of a text without its margin and its plus sign. -/
theorem exists_margins {l : List Char} (h : splitSign (trimBy isSpace l) = (false, cs)) : ∃ before behind,
    l = before ++ cs ++ behind ∧ (∀ c ∈ before, isSpace c = true ∨ c = '+') ∧ ∀ c ∈ behind, isSpace c = true := by
  obtain ⟨before, behind, heq, hbefore, hbehind⟩ := exists_trimBy isSpace l
  rcases eq_of_splitSign h with hsign | hsign
  · exact ⟨before, behind, by rw [← hsign, ← heq], fun c hc => .inl (hbefore c hc), hbehind⟩
  · refine ⟨before ++ ['+'], behind, by rw [List.append_assoc before, List.singleton_append, ← hsign, ← heq], ?_, hbehind⟩
    intro c hc
    rcases List.mem_append.1 hc with hc | hc
    · exact .inl (hbefore c hc)
    · exact .inr (List.mem_singleton.1 hc)

theorem joinsFrom_append (h : joinsFrom after (pre ++ cs) = true) (hhead : cs.head? ≠ some '_') :
    joinsFrom false cs = true := by
  induction pre generalizing after with
  | nil => rwa [List.nil_append, joinsFrom_of_head hhead] at h
  | cons c pre ih =>
    by_cases hc : c = '_'
    · subst hc
      rw [List.cons_append, joinsFrom_underscore, Bool.and_eq_true] at h
      exact ih h.2
    · rw [List.cons_append, joinsFrom_cons hc] at h
      exact ih h

/-- Characters without the underscores among them. -/
def ungrouped (cs : List Char) : List Char := cs.filter (· != '_')

theorem ungrouped_cons (h : c ≠ '_') : ungrouped (c :: cs) = c :: ungrouped cs := List.filter_cons_of_pos (bne_iff_ne.2 h)

@[simp] theorem ungrouped_underscore : ungrouped ('_' :: cs) = ungrouped cs := rfl

@[simp] theorem mem_ungrouped_iff : c ∈ ungrouped cs ↔ c ∈ cs ∧ c ≠ '_' := by simp [ungrouped]

theorem head?_ungrouped (cs : List Char) : (ungrouped cs).head? ≠ some '_' := fun h =>
  (mem_ungrouped_iff.1 (List.mem_of_head? h)).2 rfl

/-- Words between underscores that join are not empty. -/
theorem splitOn_of_joins (h : joinsFrom after cs = true) : ∃ w ws, cs.splitOn '_' = w :: ws ∧
    (w = [] → cs = [] ∨ cs.head? = some '_') ∧ ∀ x ∈ ws, x ≠ [] := by
  induction cs generalizing after with
  | nil => exact ⟨[], [], rfl, fun _ => .inl rfl, nofun⟩
  | cons c cs ih =>
    rw [List.splitOn_cons_eq_if_modifyHead]
    by_cases hc : c = '_'
    · subst hc
      rw [joinsFrom_underscore, Bool.and_eq_true, Bool.and_eq_true] at h
      obtain ⟨w, ws, hw, hfirst, hrest⟩ := ih h.2
      -- an empty word behind the underscore means that it is the last character, or that another one follows
      refine ⟨[], w :: ws, by simp [hw], fun _ => .inr rfl, List.forall_mem_cons.2 ⟨fun hempty => ?_, hrest⟩⟩
      rcases hfirst hempty with rfl | hhead
      · exact nomatch h.1.2
      · rw [hhead] at h
        exact nomatch h.1.2
    · rw [joinsFrom_cons hc] at h
      obtain ⟨w, ws, hw, -, hrest⟩ := ih h
      exact ⟨c :: w, ws, by simp [hw, hc], nofun, hrest⟩

theorem any_isEmpty_splitOn (hne : cs ≠ []) (h : joinsFrom false cs = true) : (cs.splitOn '_').any (·.isEmpty) = false := by
  obtain ⟨w, ws, hw, hfirst, hrest⟩ := splitOn_of_joins h
  have hw' : w ≠ [] := fun hempty => (hfirst hempty).elim hne (head?_ne_of_joins h)
  rw [hw, List.any_eq_false]
  intro x hx
  rw [List.isEmpty_iff]
  rcases List.mem_cons.1 hx with rfl | hx
  · exact hw'
  · exact hrest x hx

theorem flatten_splitOn : (cs.splitOn '_').flatten = ungrouped cs := by
  induction cs with
  | nil => rfl
  | cons c cs ih =>
    rw [List.splitOn_cons_eq_if_modifyHead]
    by_cases hc : c = '_'
    · simpa [hc] using ih
    · obtain ⟨w, ws, hw⟩ := List.exists_cons_of_ne_nil (List.splitOn_ne_nil '_' cs)
      rw [hw] at ih
      simpa [ungrouped_cons hc, hc, hw] using ih

end Text

end VirtualTopology
