import Mathlib.Algebra.GroupWithZero.Nat
import VirtualTopology.Address
import VirtualTopology.HardwareAddress
import VirtualTopology.Identifier
import VirtualTopology.Proofs.Text.Numeral

/-!
# Identifiers and addresses are read back

An identifier and an internet address have several spellings, of which one is written. That one is read
back (`Identifier.ofText?_text`, `Address.ofText?_text`), so that different identifiers and addresses have
different texts. A hardware address that is accepted is in small letters already
(`HardwareAddress.lower_eq_self`).
-/

namespace VirtualTopology

/-! ### Numbers -/

namespace Text

/-- Different numbers are written differently. -/
theorem toString_nat_injective : Function.Injective (toString : Nat → String) := by
  intro m n h
  have hdigits : Nat.toDigits 10 m = Nat.toDigits 10 n := by
    rw [Nat.toString_eq_repr, Nat.toString_eq_repr] at h
    rw [← Nat.toList_repr, ← Nat.toList_repr, h]
  rw [← Nat.ofDigitChars_toDigits (b := 10) (n := m) (by decide) (by decide), hdigits,
    Nat.ofDigitChars_toDigits (by decide) (by decide)]

theorem toList_negSucc (n : Nat) : (toString (Int.negSucc n)).toList = '-' :: (toString (n + 1)).toList := by
  simp [toString, Int.repr, Nat.succ_eq_add_one]

theorem toString_int_ne_empty (i : Int) : toString i ≠ "" := by
  cases i with
  | ofNat n => exact Nat.repr_ne_empty
  | negSucc n =>
    intro h
    have hnil := toList_negSucc n
    rw [h] at hnil
    exact nomatch hnil

/-- A minus sign is no digit, so integers are written differently too. -/
theorem toString_int_injective : Function.Injective (toString : Int → String) := by
  have hne : ∀ m n : Nat, toString (Int.ofNat m) ≠ toString (Int.negSucc n) := by
    intro m n h
    have hminus : '-' ∈ (toString m).toList := by
      have hlist : (toString m).toList = (toString (Int.negSucc n)).toList := congrArg String.toList h
      rw [hlist, toList_negSucc]
      exact List.mem_cons_self
    exact absurd (isDigit_toString m _ hminus) (by decide)
  intro i j h
  match i, j with
  | .ofNat m, .ofNat n => exact congrArg Int.ofNat (toString_nat_injective h)
  | .ofNat m, .negSucc n => exact absurd h (hne m n)
  | .negSucc m, .ofNat n => exact absurd h.symm (hne n m)
  | .negSucc m, .negSucc n =>
    have htail : (toString (m + 1)).toList = (toString (n + 1)).toList := by
      have hlist := congrArg String.toList h
      rw [toList_negSucc, toList_negSucc] at hlist
      exact List.tail_eq_of_cons_eq hlist
    have hsucc := toString_nat_injective (String.toList_injective htail)
    rw [Nat.succ.inj hsucc]

theorem hexDigit?_hexDigit : ∀ n < 16, hexDigit? (hexDigit n) = some n := by decide

theorem exists_hexDigit_of_mem_hex {width n : Nat} {c : Char} (h : c ∈ hex width n) :
    ∃ k < 16, c = hexDigit k := by
  induction width generalizing n with
  | zero => exact absurd h (by simp [hex])
  | succ w ih =>
    rw [hex, List.mem_append] at h
    rcases h with h | h
    · exact ih h
    · exact ⟨n % 16, Nat.mod_lt _ (by decide), List.mem_singleton.1 h⟩

end Text

/-! ### Identifiers -/

namespace Identifier

open Text

/-- Hexadecimal digits are those of the number, as far as they go. -/
theorem digits?_hex (width n : Nat) :
    ∃ ds, digits? (hex width n) = some ds ∧ ds.foldl (fun n d => 16 * n + d) 0 = n % 16 ^ width := by
  induction width generalizing n with
  | zero => exact ⟨[], rfl, by simp [Nat.mod_one]⟩
  | succ w ih =>
    obtain ⟨ds, hds, hvalue⟩ := ih (n / 16)
    have hlast := hexDigit?_hexDigit (n % 16) (Nat.mod_lt _ (by decide))
    refine ⟨ds ++ [n % 16], ?_, ?_⟩
    · rw [digits?] at hds ⊢
      simp [hex, List.mapM_append, hds, hlast]
    · rw [List.foldl_append, hvalue, List.foldl_cons, List.foldl_nil, Nat.pow_succ, Nat.mul_comm (16 ^ w) 16,
        Nat.mod_mul]
      omega

/-- Hyphens that were put between groups are taken out again. -/
theorem ungroup?_hyphenate {groups : List Nat} {cs : List Char} (h : cs.length = groups.sum) :
    ungroup? groups (hyphenate groups cs) = some cs := by
  fun_induction hyphenate groups cs with
  | case1 cs => simp [List.length_eq_zero_iff.1 h, ungroup?]
  | case2 n cs => simpa [ungroup?] using h
  | case3 n ns cs hne ih =>
    have hlength : cs.length = n + ns.sum := by simpa using h
    have hrest := ih (by simp [hlength])
    have htake : (cs.take n).length = n := by
      rw [List.length_take]
      omega
    rw [ungroup?.eq_3 _ _ _ hne]
    simp only [List.drop_left' htake, List.take_left' htake, hrest, Option.map_some, List.take_append_drop]

theorem length_hyphenate {groups : List Nat} {cs : List Char} (h : cs.length = groups.sum) :
    (hyphenate groups cs).length = cs.length + (groups.length - 1) := by
  fun_induction hyphenate groups cs with
  | case1 cs => simp
  | case2 n cs => simp
  | case3 n ns cs hne ih =>
    have hlength : cs.length = n + ns.sum := by simpa using h
    have hpos : 0 < ns.length := List.length_pos_iff.2 hne
    rw [List.length_append, List.length_cons, ih (by simp [hlength]), List.length_take, List.length_drop,
      List.length_cons]
    omega

/-- Nothing but hyphens is added. -/
theorem mem_hyphenate {groups : List Nat} {cs : List Char} {c : Char} (h : c ∈ hyphenate groups cs) :
    c = '-' ∨ c ∈ cs := by
  fun_induction hyphenate groups cs with
  | case1 cs => exact .inr h
  | case2 n cs => exact .inr h
  | case3 n ns cs _ ih =>
    rcases List.mem_append.1 h with h | h
    · exact .inr (List.mem_of_mem_take h)
    · rcases List.mem_cons.1 h with rfl | h
      · exact .inl rfl
      · exact (ih h).imp_right List.mem_of_mem_drop

/-- **An identifier is read back.** -/
theorem ofText?_text (i : Identifier) : ofText? i.text = some i := by
  have hlength : (hex 32 i.bits.toNat).length = groups.sum := length_hex 32 _
  have hgroups : ofGroups? (hyphenate groups (hex 32 i.bits.toNat)) = some i := by
    obtain ⟨ds, hds, hvalue⟩ := digits?_hex 32 i.bits.toNat
    have hbits : i.bits.toNat % 16 ^ 32 = i.bits.toNat := Nat.mod_eq_of_lt i.bits.isLt
    rw [ofGroups?, ungroup?_hyphenate hlength, Option.bind_some, ofDigits?, if_pos (length_hex 32 _), hds,
      Option.map_some, hvalue, hbits, BitVec.ofNat_toNat, BitVec.setWidth_eq]
  -- The text begins with a digit, so it is neither of the spellings that begin otherwise.
  obtain ⟨c, cs, hcs⟩ : ∃ c cs, hex 32 i.bits.toNat = c :: cs :=
    List.exists_cons_of_length_pos (by rw [length_hex]; decide)
  obtain ⟨k, hk, rfl⟩ := exists_hexDigit_of_mem_hex (hcs ▸ List.mem_cons_self)
  obtain ⟨rest, hrest⟩ : ∃ rest, hyphenate groups (hexDigit k :: cs) = hexDigit k :: rest := ⟨_, rfl⟩
  have hother : ∀ k < 16, hexDigit k ≠ '\x7b' ∧ hexDigit k ≠ 'u' := by decide
  obtain ⟨hbrace, hurn⟩ := hother k hk
  have hlong : (hexDigit k :: rest).length ≠ 32 := by
    rw [← hrest, ← hcs, length_hyphenate hlength, length_hex]
    decide
  have htext : i.text.toList = hexDigit k :: rest := by rw [text, String.toList_ofList, hcs, hrest]
  rw [hcs, hrest] at hgroups
  rw [ofText?, htext]
  split
  · next heq => exact absurd (List.cons.inj heq).1 hbrace
  · have hplain : "urn:uuid:".toList.isPrefixOf (hexDigit k :: rest) = false := by
      rw [Bool.eq_false_iff]
      intro h
      exact hurn (List.cons_prefix_cons.1 (List.isPrefixOf_iff_prefix.1 h)).1.symm
    simp only [hplain, Bool.false_eq_true, if_false, hlong, hgroups]

theorem text_injective : Function.Injective text := by
  intro i j h
  have hread := congrArg ofText? h
  rw [ofText?_text, ofText?_text] at hread
  exact Option.some.inj hread

theorem text_ne_empty (i : Identifier) : i.text ≠ "" := by
  intro h
  have hread := ofText?_text i
  have hempty : ofText? "" = none := by decide
  rw [h, hempty] at hread
  exact nomatch hread

end Identifier

/-! ### Internet addresses -/

namespace Address

open Text

theorem pieces_eq_splitOn (cs : List Char) : pieces cs = cs.splitOn '.' := by
  induction cs with
  | nil => rfl
  | cons c cs ih =>
    unfold pieces
    rw [List.splitOn_cons_eq_if_modifyHead, ← ih]
    by_cases hpoint : c = '.'
    · subst hpoint
      simp
    · cases hpieces : pieces cs with
      | nil => exact absurd (ih ▸ hpieces) (List.splitOn_ne_nil _ _)
      | cons => simp [hpoint]

theorem quad?_toString : ∀ n < 256, quad? (toString n).toList = some n := by decide +kernel

theorem mapM_quad?_toString {ns : List Nat} (h : ∀ n ∈ ns, n < 256) :
    (ns.map fun n => (toString n).toList).mapM quad? = some ns := by
  induction ns with
  | nil => rfl
  | cons n ns ih =>
    have hn := quad?_toString n (h n (by simp))
    have hns := ih fun m hm => h m (by simp [hm])
    rw [List.map_cons, List.mapM_cons, hn, hns]
    rfl

/-- **An address is read back.** -/
theorem ofText?_text (a : Address) : ofText? a.text = some a := by
  have htext : a.text.toList = ['.'].intercalate (a.quads.map fun n => (toString n).toList) := by
    rw [text, String.toList_intercalate, List.map_map]
    rfl
  have hpieces : pieces a.text.toList = a.quads.map fun n => (toString n).toList := by
    have hdigits : ∀ ds ∈ a.quads.map fun n => (toString n).toList, '.' ∉ ds :=
      List.forall_mem_map.2 fun n _ hpoint => absurd (isDigit_toString n _ hpoint) (by decide)
    rw [htext, pieces_eq_splitOn, List.splitOn_intercalate _ hdigits (List.cons_ne_nil _ _)]
  have hread : (pieces a.text.toList).mapM quad? = some a.quads := by
    rw [hpieces]
    refine mapM_quad?_toString ?_
    simp only [quads, List.forall_mem_cons]
    exact ⟨Nat.mod_lt _ (by decide), Nat.mod_lt _ (by decide), Nat.mod_lt _ (by decide),
      Nat.mod_lt _ (by decide), by simp⟩
  have hbound := a.bits.isLt
  have hbits : ofQuads (a.bits.toNat / 0x1000000 % 256) (a.bits.toNat / 0x10000 % 256)
      (a.bits.toNat / 0x100 % 256) (a.bits.toNat % 256) = a := by
    have hvalue : ((a.bits.toNat / 0x1000000 % 256 * 256 + a.bits.toNat / 0x10000 % 256) * 256 +
        a.bits.toNat / 0x100 % 256) * 256 + a.bits.toNat % 256 = a.bits.toNat := by omega
    rw [ofQuads, hvalue, BitVec.ofNat_toNat, BitVec.setWidth_eq]
  rw [ofText?, hread, quads]
  simp only [hbits]

end Address

/-! ### Hardware addresses -/

namespace HardwareAddress

open Text

/-- The characters of a hardware address that is accepted. -/
theorem mem_of_acceptsPairs {pairs : Nat} {cs : List Char} (h : acceptsPairs pairs cs = true) :
    ∀ c ∈ cs, isSmallHex c = true ∨ c = ':' ∨ c = '\n' := by
  fun_induction acceptsPairs pairs cs with
  | case1 a b => simp_all
  | case2 a b => simp_all
  | case3 n a b rest ih =>
    simp only [Bool.and_eq_true] at h
    simp only [List.forall_mem_cons]
    exact ⟨.inl h.1.1, .inl h.1.2, .inr (.inl trivial), ih h.2⟩
  | case4 => exact absurd h (by simp)

theorem isSmallHex_of_mem_hex {width n : Nat} {c : Char} (h : c ∈ hex width n) : isSmallHex c = true := by
  obtain ⟨k, hk, rfl⟩ := exists_hexDigit_of_mem_hex h
  have hall : ∀ k < 16, isSmallHex (hexDigit k) = true := by decide
  exact hall k hk

/-- A derived address consists of small digits and colons. -/
theorem mem_derive {seed : String} {index : Int} {c : Char} (h : c ∈ (derive seed index).toList) :
    isSmallHex c = true ∨ c = ':' := by
  rw [derive, String.toList_ofList] at h
  rcases List.mem_append.1 h with hvendor | hrest
  · have hall : ∀ c ∈ vendor, isSmallHex c = true ∨ c = ':' := by decide
    exact hall c hvendor
  · obtain ⟨o, -, hc⟩ := List.mem_flatMap.1 hrest
    exact (List.mem_cons.1 hc).symm.imp_left isSmallHex_of_mem_hex

/-- Small characters of ASCII stay. -/
theorem lowerFrom_eq_self {before cs : List Char} (h : ∀ c ∈ cs, c.toNat < 128 ∧ c.toLower = c) :
    lowerFrom before cs = cs := by
  rw [lowerFrom_of_ascii fun c hc => (h c hc).1]
  exact (List.map_congr_left fun c hc => (h c hc).2).trans (List.map_id' cs)

/-- A text of small digits, colons and blanks is in small letters. -/
theorem lower_eq_self_of_mem {s : String} (h : ∀ c ∈ s.toList, isSmallHex c = true ∨ c ∈ [':', '\n', ' ']) :
    lower s = s := by
  rw [lower, lowerFrom_eq_self, String.ofList_toList]
  intro c hc
  rcases h c hc with hhex | hmark
  · simp only [isSmallHex, Bool.or_eq_true, Bool.and_eq_true, decide_eq_true_eq] at hhex
    refine ⟨by omega, dif_neg fun hcapital => ?_⟩
    have hlow : 65 ≤ c.toNat := UInt32.le_iff_toNat_le.1 hcapital.1
    have hhigh : c.toNat ≤ 90 := UInt32.le_iff_toNat_le.1 hcapital.2
    omega
  · simp only [List.mem_cons, List.not_mem_nil, or_false] at hmark
    rcases hmark with rfl | rfl | rfl <;> decide

/-- **A hardware address that is accepted is in small letters already.** -/
theorem lower_eq_self {s : String} (h : accepts s.toList = true) : lower s = s := by
  refine lower_eq_self_of_mem fun c hc => (mem_of_acceptsPairs h c hc).imp_right ?_
  rintro (rfl | rfl)
  · simp
  · simp

end HardwareAddress

end VirtualTopology
