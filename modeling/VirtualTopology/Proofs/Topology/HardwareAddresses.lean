import VirtualTopology.Proofs.Data.Mapping
import VirtualTopology.Proofs.Document.Faithful

/-!
# Hardware addresses that are declared

A hardware address is six groups of two hexadecimal digits with colons between them, and nothing else
(`HardwareAddress.IsAddress`). A declared text is put into small letters first, and what passes then is an address, or an
address with one line feed behind it (`HardwareAddress.accepts_lower_iff`). No letter outside ASCII has a small form that
would pass: the Kelvin sign becomes a `k`, which is no hexadecimal digit.

The line feed is kept. The interface has a text of 18 characters where an address has 17, and the document of its domain
says the address with a line feed, which is read as a space (`Interface.accepts_addresses`, `Interface.accepts_lineFeed`).
Every other interface has an address in small letters in the document, the declared one or the one that is derived for it.
-/

namespace VirtualTopology

open Document Text

namespace HardwareAddress

variable {p : Char → Bool} {n : Nat} {cs : List Char} {s : String}

/-! ### Groups -/

/-- Whether characters are a number of groups of two digits of a kind, with colons between them. -/
def IsGroups (p : Char → Bool) (n : Nat) (cs : List Char) : Prop :=
  ∃ groups : List (List Char), groups.length = n ∧ (∀ g ∈ groups, g.length = 2 ∧ ∀ c ∈ g, p c = true) ∧
    [':'].intercalate groups = cs

theorem isGroups_one : IsGroups p 1 cs ↔ ∃ a b, (p a = true ∧ p b = true) ∧ cs = [a, b] := by
  constructor
  · rintro ⟨groups, hlength, hgroups, rfl⟩
    obtain ⟨g, rfl⟩ := List.length_eq_one_iff.1 hlength
    obtain ⟨htwo, hdigits⟩ := hgroups g List.mem_cons_self
    obtain ⟨a, b, rfl⟩ := List.length_eq_two.1 htwo
    exact ⟨a, b, ⟨hdigits a (by simp), hdigits b (by simp)⟩, List.intercalate_singleton⟩
  · rintro ⟨a, b, ⟨ha, hb⟩, rfl⟩
    exact ⟨[[a, b]], rfl, by simp [ha, hb], List.intercalate_singleton⟩

/-- Behind the first of several groups stands a colon, and then the others. -/
theorem isGroups_succ : IsGroups p (n + 2) cs ↔
    ∃ a b rest, (p a = true ∧ p b = true) ∧ IsGroups p (n + 1) rest ∧ cs = a :: b :: ':' :: rest := by
  constructor
  · rintro ⟨groups, hlength, hgroups, rfl⟩
    obtain ⟨first, others, rfl⟩ := List.exists_cons_of_length_eq_add_one hlength
    obtain ⟨second, others, rfl⟩ := List.exists_cons_of_length_eq_add_one (Nat.succ.inj hlength)
    obtain ⟨⟨htwo, hdigits⟩, hrest⟩ := List.forall_mem_cons.1 hgroups
    obtain ⟨a, b, rfl⟩ := List.length_eq_two.1 htwo
    refine ⟨a, b, _, ⟨hdigits a (by simp), hdigits b (by simp)⟩, ⟨second :: others, by simpa using hlength, hrest, rfl⟩, ?_⟩
    rw [List.intercalate_cons_cons]
    rfl
  · rintro ⟨a, b, _, ⟨ha, hb⟩, ⟨groups, hlength, hgroups, rfl⟩, rfl⟩
    obtain ⟨second, others, rfl⟩ := List.exists_cons_of_length_eq_add_one hlength
    refine ⟨[a, b] :: second :: others, by simpa using hlength, ?_, ?_⟩
    · exact List.forall_mem_cons.2 ⟨by simp [ha, hb], hgroups⟩
    · rw [List.intercalate_cons_cons]
      rfl

theorem length_of_isGroups (h : IsGroups p (n + 1) cs) : cs.length = 3 * n + 2 := by
  induction n generalizing cs with
  | zero =>
    obtain ⟨a, b, -, rfl⟩ := isGroups_one.1 h
    rfl
  | succ n ih =>
    obtain ⟨a, b, rest, -, hrest, rfl⟩ := isGroups_succ.1 h
    simp only [List.length_cons, ih hrest]
    omega

theorem mem_of_isGroups (h : IsGroups p (n + 1) cs) : ∀ c ∈ cs, p c = true ∨ c = ':' := by
  induction n generalizing cs with
  | zero =>
    obtain ⟨a, b, ⟨ha, hb⟩, rfl⟩ := isGroups_one.1 h
    simp [ha, hb]
  | succ n ih =>
    obtain ⟨a, b, rest, ⟨ha, hb⟩, hrest, rfl⟩ := isGroups_succ.1 h
    simp only [List.forall_mem_cons]
    exact ⟨.inl ha, .inl hb, .inr trivial, ih hrest⟩

/-- Characters may be replaced one by one, if this neither makes nor removes a colon. -/
theorem isGroups_map {f : Char → Char} (hf : ∀ c, f c = ':' ↔ c = ':') :
    IsGroups p (n + 1) (cs.map f) ↔ IsGroups (p ∘ f) (n + 1) cs := by
  induction n generalizing cs with
  | zero =>
    rw [isGroups_one, isGroups_one]
    constructor
    · rintro ⟨_, _, hdigits, hcs⟩
      obtain ⟨a, _, rfl, rfl, htail⟩ := List.map_eq_cons_iff.1 hcs
      obtain ⟨b, rfl, rfl⟩ := List.map_eq_singleton_iff.1 htail
      exact ⟨a, b, hdigits, rfl⟩
    · rintro ⟨a, b, hdigits, rfl⟩
      exact ⟨f a, f b, hdigits, rfl⟩
  | succ n ih =>
    rw [isGroups_succ, isGroups_succ]
    constructor
    · rintro ⟨_, _, _, hdigits, hrest, hcs⟩
      obtain ⟨a, _, rfl, rfl, htail⟩ := List.map_eq_cons_iff.1 hcs
      obtain ⟨b, _, rfl, rfl, hmore⟩ := List.map_eq_cons_iff.1 htail
      obtain ⟨c, rest, rfl, hcolon, rfl⟩ := List.map_eq_cons_iff.1 hmore
      obtain rfl := (hf c).1 hcolon
      exact ⟨a, b, rest, hdigits, ih.1 hrest, rfl⟩
    · rintro ⟨a, b, rest, hdigits, hrest, rfl⟩
      have hcolon : f ':' = ':' := (hf ':').2 rfl
      exact ⟨f a, f b, rest.map f, hdigits, ih.2 hrest, by simp [hcolon]⟩

/-! ### What passes -/

/-- A hexadecimal digit, its letters small or capital. -/
def isHex (c : Char) : Bool := (hexDigit? c).isSome

/-- **Whether a text is a hardware address.** -/
def IsAddress (s : String) : Prop := IsGroups isHex 6 s.toList

/-- Whether a text is a hardware address in small letters. -/
def IsSmallAddress (s : String) : Prop := IsGroups isSmallHex 6 s.toList

/-- An address has 17 characters. -/
theorem IsSmallAddress.length (h : IsSmallAddress s) : s.length = 17 := length_of_isGroups h

theorem acceptsPairs_zero_iff : acceptsPairs 0 cs = true ↔
    ∃ front, IsGroups isSmallHex 1 front ∧ (cs = front ∨ cs = front ++ ['\n']) := by
  simp only [isGroups_one]
  constructor
  · intro h
    unfold acceptsPairs at h
    split at h
    · next a b _ => exact ⟨[a, b], ⟨a, b, by simpa using h, rfl⟩, .inl rfl⟩
    · next a b _ => exact ⟨[a, b], ⟨a, b, by simpa using h, rfl⟩, .inr rfl⟩
    · next hzero => exact absurd hzero (by simp)
    · exact nomatch h
  · rintro ⟨_, ⟨a, b, ⟨ha, hb⟩, rfl⟩, rfl | rfl⟩
    · simp [acceptsPairs, ha, hb]
    · simp [acceptsPairs, ha, hb]

theorem acceptsPairs_succ_iff : acceptsPairs (n + 1) cs = true ↔
    ∃ a b rest, (isSmallHex a = true ∧ isSmallHex b = true) ∧ acceptsPairs n rest = true ∧
      cs = a :: b :: ':' :: rest := by
  constructor
  · intro h
    unfold acceptsPairs at h
    split at h
    · next hzero => exact absurd hzero (by simp)
    · next hzero => exact absurd hzero (by simp)
    · next m a b rest hsucc =>
      obtain rfl := Nat.succ.inj hsucc
      simp only [Bool.and_eq_true] at h
      exact ⟨a, b, rest, h.1, h.2, rfl⟩
    · exact nomatch h
  · rintro ⟨a, b, rest, ⟨ha, hb⟩, hrest, rfl⟩
    simp [acceptsPairs, ha, hb, hrest]

/-- **The texts that pass** are groups of small digits, and the same with one line feed behind them. -/
theorem acceptsPairs_iff : acceptsPairs n cs = true ↔
    ∃ front, IsGroups isSmallHex (n + 1) front ∧ (cs = front ∨ cs = front ++ ['\n']) := by
  induction n generalizing cs with
  | zero => exact acceptsPairs_zero_iff
  | succ n ih =>
    -- the line feed, if there is one, stands behind the last pair, and so in what is left behind the first
    simp only [acceptsPairs_succ_iff, isGroups_succ, ih]
    constructor
    · rintro ⟨a, b, rest, hdigits, ⟨front, hfront, hrest⟩, rfl⟩
      refine ⟨a :: b :: ':' :: front, ⟨a, b, front, hdigits, hfront, rfl⟩, ?_⟩
      exact hrest.imp (fun h => by rw [h]) fun h => by rw [h]; rfl
    · rintro ⟨_, ⟨a, b, front, hdigits, hfront, rfl⟩, rfl | rfl⟩
      · exact ⟨a, b, front, hdigits, ⟨front, hfront, .inl rfl⟩, rfl⟩
      · exact ⟨a, b, front ++ ['\n'], hdigits, ⟨front, hfront, .inr rfl⟩, rfl⟩

/-! ### Small letters -/

theorem isHex_ascii {c : Char} (h : isHex c = true) : c.toNat < 128 := by
  unfold isHex hexDigit? at h
  dsimp only at h
  split at h
  · omega
  · split at h
    · omega
    · split at h
      · omega
      · exact nomatch h

/-- The small letters of hexadecimal digits are the small hexadecimal digits. -/
theorem isSmallHex_toLower (c : Char) : isSmallHex c.toLower = isHex c := by
  by_cases hascii : c.toNat < 128
  · refine forall_ascii (p := fun c => isSmallHex c.toLower = isHex c) ?_ hascii
    decide
  -- beyond ASCII nothing is a hexadecimal digit, and `Char.toLower` changes nothing
  · have hsmall : isSmallHex c = false := by
      simp only [isSmallHex, Bool.or_eq_false_iff, Bool.and_eq_false_iff, decide_eq_false_iff_not]
      omega
    have hother : isHex c = false := by
      rw [← Bool.not_eq_true]
      exact fun h => hascii (isHex_ascii h)
    rw [toLower_of_le (Nat.not_lt.1 hascii), hsmall, hother]

/-- Marks are the small letters of themselves alone. -/
theorem toLower_eq_mark_iff {mark : Char} (hmark : mark ∈ [':', '\n']) (c : Char) : c.toLower = mark ↔ c = mark := by
  by_cases hascii : c.toNat < 128
  · have hall : ∀ mark ∈ [':', '\n'], ∀ n < 128, (Char.ofNat n).toLower = mark ↔ Char.ofNat n = mark := by decide
    exact forall_ascii (p := fun c => c.toLower = mark ↔ c = mark) (hall mark hmark) hascii
  · rw [toLower_of_le (Nat.not_lt.1 hascii)]

theorem isGroups_toLower : IsGroups isSmallHex (n + 1) (cs.map Char.toLower) ↔ IsGroups isHex (n + 1) cs := by
  have hdigits : isSmallHex ∘ Char.toLower = isHex := funext isSmallHex_toLower
  rw [isGroups_map (toLower_eq_mark_iff (by simp)), hdigits]

theorem ascii_of_isAddress (h : IsAddress s) : ∀ c ∈ s.toList, c.toNat < 128 := by
  intro c hc
  rcases mem_of_isGroups h c hc with hhex | rfl
  · exact isHex_ascii hhex
  · decide

theorem toList_lower (h : ∀ c ∈ s.toList, c.toNat < 128) : (lower s).toList = s.toList.map Char.toLower := by
  rw [lower, String.toList_ofList, lowerFrom_of_ascii h]

/-- **The small letters of an address are an address.** -/
theorem IsAddress.lower (h : IsAddress s) : IsSmallAddress (lower s) := by
  rw [IsSmallAddress, toList_lower (ascii_of_isAddress h)]
  exact isGroups_toLower.2 h

/-- A line feed behind an address stays there. -/
theorem lower_lineFeed (h : IsAddress s) : Text.lower (s ++ "\n") = Text.lower s ++ "\n" := by
  have hascii : ∀ c ∈ (s ++ "\n").toList, c.toNat < 128 := by
    rw [String.toList_append, List.forall_mem_append]
    exact ⟨ascii_of_isAddress h, by decide⟩
  refine String.toList_injective ?_
  rw [toList_lower hascii, String.toList_append, String.toList_append, toList_lower (ascii_of_isAddress h),
    List.map_append]
  rfl

/-- What passes is in ASCII and has no `k`. -/
theorem ascii_of_accepts (h : accepts cs = true) : ∀ c ∈ cs, c.toNat < 128 ∧ c ≠ 'k' := by
  intro c hc
  rcases mem_of_acceptsPairs h c hc with hhex | rfl | rfl
  · refine ⟨?_, ?_⟩
    · simp only [isSmallHex, Bool.or_eq_true, Bool.and_eq_true, decide_eq_true_eq] at hhex
      omega
    · rintro rfl
      exact absurd hhex (by decide)
  · decide
  · decide

/-- **What passes in small letters** is an address, or an address with one line feed behind it. -/
theorem accepts_lower_iff : accepts (Text.lower s).toList = true ↔ IsAddress s ∨ ∃ a, IsAddress a ∧ s = a ++ "\n" := by
  constructor
  · intro h
    -- small letters that pass tell that the declared text was in ASCII, so that each of its characters stands for one
    have hsmall := ascii_of_accepts h
    rw [Text.lower, String.toList_ofList] at hsmall
    rw [toList_lower (ascii_of_lowerFrom hsmall), accepts, acceptsPairs_iff] at h
    obtain ⟨front, hfront, hcs | hcs⟩ := h
    · exact .inl (isGroups_toLower.1 (hcs ▸ hfront))
    · obtain ⟨address, behind, hs, rfl, hbehind⟩ := List.map_eq_append_iff.1 hcs
      obtain ⟨c, rfl, hfeed⟩ := List.map_eq_singleton_iff.1 hbehind
      -- nothing but a line feed becomes one
      obtain rfl := (toLower_eq_mark_iff (by simp) c).1 hfeed
      refine .inr ⟨String.ofList address, ?_, String.toList_injective ?_⟩
      · rw [IsAddress, String.toList_ofList]
        exact isGroups_toLower.1 hfront
      · rw [hs, String.toList_append, String.toList_ofList]
        rfl
  · rintro (h | ⟨a, h, rfl⟩)
    · exact acceptsPairs_iff.2 ⟨_, h.lower, .inl rfl⟩
    · rw [lower_lineFeed h, String.toList_append]
      exact acceptsPairs_iff.2 ⟨_, h.lower, .inr rfl⟩

/-- A text that passes as it is, is an address in small letters, or one with a line feed behind it. -/
theorem of_accepts (h : accepts s.toList = true) : IsSmallAddress s ∨ ∃ a, IsSmallAddress a ∧ s = a ++ "\n" := by
  have hself := lower_eq_self h
  rcases accepts_lower_iff.1 (hself.symm ▸ h) with haddress | ⟨a, ha, rfl⟩
  · exact .inl (hself ▸ haddress.lower)
  · exact .inr ⟨Text.lower a, ha.lower, by rw [← lower_lineFeed ha, hself]⟩

theorem IsSmallAddress.ne_empty (h : IsSmallAddress s) : s ≠ "" := by
  rintro rfl
  exact absurd h.length (by decide)

/-- Addresses are on one line. -/
theorem IsSmallAddress.onOneLine (h : IsSmallAddress s) : OnOneLine s := by
  intro c hc
  rcases mem_of_isGroups h c hc with hhex | rfl
  · refine ⟨?_, ?_, ?_⟩ <;> (rintro rfl; exact absurd hhex (by decide))
  · decide

/-- A line feed behind an address is shown as a space. -/
theorem IsSmallAddress.shown_lineFeed (h : IsSmallAddress s) : shown (s ++ "\n") = s ++ " " := by
  have hreturn : '\r' ∉ (s ++ "\n").toList := by
    rw [String.toList_append, List.mem_append]
    rintro (hc | hc)
    · exact (h.onOneLine _ hc).2.2 rfl
    · exact absurd hc (by decide)
  have hflat : s.toList.map flattenChar = s.toList := by
    have hshown := congrArg String.toList (shown_eq_self h.onOneLine)
    rwa [shown, unified_eq_self fun hc => (h.onOneLine _ hc).2.2 rfl, flatten, String.toList_ofList] at hshown
  refine String.toList_injective ?_
  rw [shown, unified_eq_self hreturn, flatten, String.toList_ofList, String.toList_append, String.toList_append,
    List.map_append, hflat]
  rfl

/-- **A derived address is an address.** -/
theorem isSmallAddress_derive (seed : String) (index : Int) : IsSmallAddress (derive seed index) := by
  have htwo (n : Nat) : (hex 2 n).length = 2 ∧ ∀ c ∈ hex 2 n, isSmallHex c = true :=
    ⟨length_hex 2 n, fun _ => isSmallHex_of_mem_hex⟩
  obtain ⟨x, y, z, hoctets⟩ : ∃ x y z,
      (Digest.sha256 (seed ++ "/" ++ toString index).toUTF8.toList).take 3 = [x, y, z] := ⟨_, _, _, rfl⟩
  rw [IsSmallAddress, derive, String.toList_ofList, hoctets]
  refine ⟨[['5', '2'], ['5', '4'], ['0', '0'], hex 2 x.toNat, hex 2 y.toNat, hex 2 z.toNat], rfl, ?_, rfl⟩
  simp only [List.forall_mem_cons]
  exact ⟨by decide, by decide, by decide, htwo _, htwo _, htwo _, List.forall_mem_nil _⟩

end HardwareAddress

namespace Interface

open Reading HardwareAddress

variable {m : Mapping} {i j : Interface} {s a : String}

/-! ### Interfaces -/

theorem macReading_text_eq_valid_iff : macReading (.text s) = .valid a ↔
    (IsAddress s ∨ ∃ a, IsAddress a ∧ s = a ++ "\n") ∧ a = Text.lower s := by
  have htext : Reading.text (.text s) = .valid s := rfl
  rw [← accepts_lower_iff, macReading, htext, Checked.andThen_valid]
  dsimp only
  split
  · next haccepted => simp [haccepted, eq_comm]
  · next hrefused => simp [hrefused, Checked.fault]

/-- **The address of an interface may be given anew**, and nothing else changes. -/
theorem reading_put (h : reading (.mapping m) = .valid i) :
    reading (.mapping (m.put (.text "mac") (.text s))) = .valid j ↔
      ∃ a, macReading (.text s) = .valid a ∧ j = { i with mac := some a } := by
  obtain ⟨hadmits, hfields⟩ := sealed_eq_valid_iff.1 h
  simp only [Checked.seq_eq_valid_iff, Checked.map_eq_valid_iff] at hfields
  obtain ⟨_, address, ⟨_, mac, ⟨_, model, ⟨network, hnetwork, rfl⟩, hmodel, rfl⟩, -, rfl⟩, haddress, rfl⟩ := hfields
  -- the key is one of an interface, and the other fields do not see it
  have hput : Admits _ (m.put (.text "mac") (.text s)) := hadmits.put (by decide) (by decide) _
  unfold reading record
  dsimp only [Data.untied_mapping]
  rw [sealed_eq_valid_iff, and_iff_right hput, defaulted_put, required_put_of_ne (by decide),
    defaulted_put_of_ne (by decide), defaulted_put_of_ne (by decide), hnetwork, hmodel, haddress]
  simp only [Checked.seq_eq_valid_iff, Checked.map_eq_valid_iff, Checked.under_eq_valid_iff]
  constructor
  · rintro ⟨_, _, ⟨_, given, ⟨_, _, ⟨_, ⟨⟩, rfl⟩, ⟨⟩, rfl⟩, hgiven, rfl⟩, ⟨⟩, rfl⟩
    obtain ⟨a, ha, rfl⟩ := Checked.map_eq_valid_iff.1 hgiven
    exact ⟨a, ha, rfl⟩
  · rintro ⟨a, ha, rfl⟩
    have hgiven : Reading.optional macReading (.text s) = .valid (some a) := Checked.map_eq_valid_iff.2 ⟨a, ha, rfl⟩
    exact ⟨_, _, ⟨_, _, ⟨_, _, ⟨_, rfl, rfl⟩, rfl, rfl⟩, hgiven, rfl⟩, rfl, rfl⟩

/-- What a document states as the address of an interface, with a text in the place of a line feed behind a declared
address. -/
inductive IsStated (feed : String) (i : Interface) : String → Prop where
  /-- An address is derived where none is declared. -/
  | derived {a : String} (undeclared : i.mac = none) (address : IsSmallAddress a) : IsStated feed i a
  | declared {a : String} (declares : i.mac = some a) (address : IsSmallAddress a) : IsStated feed i a
  | fed {a : String} (declares : i.mac = some (a ++ "\n")) (address : IsSmallAddress a) : IsStated feed i (a ++ feed)

theorem isStated_hardwareAddress (h : ∀ mac, i.mac = some mac → accepts mac.toList = true) (d : Domain) (place : Nat) :
    i.IsStated "\n" (d.hardwareAddress place i) := by
  unfold Domain.hardwareAddress
  split
  · next mac hmac =>
    rcases of_accepts (h mac hmac) with haddress | ⟨a, ha, rfl⟩
    · rw [if_neg (by simpa using haddress.ne_empty)]
      exact .declared hmac haddress
    · rw [if_neg (by simp)]
      exact .fed hmac ha
  · next hnone => exact .derived hnone (isSmallAddress_derive _ _)

/-- What is stated is read with a space for a line feed. -/
theorem IsStated.shown (h : i.IsStated "\n" s) : i.IsStated " " (shown s) := by
  cases h with
  | derived hnone ha =>
    rw [shown_eq_self ha.onOneLine]
    exact .derived hnone ha
  | declared hmac ha =>
    rw [shown_eq_self ha.onOneLine]
    exact .declared hmac ha
  | fed hmac ha =>
    rw [ha.shown_lineFeed]
    exact .fed hmac ha

end Interface

/-! ### Documents -/

/-- The hardware addresses in the document of a domain, in its order. -/
def Element.hardwareAddresses (domain : Element) : List String :=
  (domain.descend ["devices", "interface", "mac"]).filterMap (·.attribute? "address")

namespace Domain

variable (d : Domain)

theorem hardwareAddresses_document : d.document.hardwareAddresses = d.interfaces.mapIdx d.hardwareAddress := by
  have hmacs : d.document.descend ["devices", "interface", "mac"] =
      d.interfaces.mapIdx fun place i => Element.empty "mac" [("address", d.hardwareAddress place i)] :=
    d.descend_interfaces_child fun _ _ => rfl
  have hvalue : ∀ place i, (Element.empty "mac" [("address", d.hardwareAddress place i)]).attribute? "address" =
      some (d.hardwareAddress place i) := fun _ _ => rfl
  rw [Element.hardwareAddresses, hmacs, List.mapIdx_eq_zipIdx_map, List.mapIdx_eq_zipIdx_map, List.filterMap_map]
  exact (List.filterMap_congr fun x _ => hvalue x.2 x.1).trans (congrFun List.filterMap_eq_map _)

theorem isStated_document (h : d.IsRead) :
    List.Forall₂ (Interface.IsStated "\n") d.interfaces d.document.hardwareAddresses := by
  rw [hardwareAddresses_document, List.forall₂_iff_get]
  refine ⟨by simp, fun place hplace _ => ?_⟩
  simp only [List.get_eq_getElem, List.getElem_mapIdx]
  exact Interface.isStated_hardwareAddress (h.mac_accepted _ (List.getElem_mem hplace)) d place

end Domain

namespace Interface

open HardwareAddress

/-- **Hardware addresses that are declared.** Whatever else an interface has, a text is taken as its address exactly if it
is an address, or one with a line feed behind it, and is kept in small letters; these are an address of 17 characters, or
one and the line feed. In the document of every domain that was read, and in what is read of its text, each interface has
such an address: the declared one, or a derived one if none is declared. Where a line feed was let through it stands in
the document, and is read as a space. -/
theorem accepts_addresses {m : Mapping} {i : Interface} {data : Data} {d : Domain}
    (hi : reading (.mapping m) = .valid i) (hd : Domain.reading data = .valid d) (s : String) :
    (∀ j, reading (.mapping (m.put (.text "mac") (.text s))) = .valid j ↔
      (IsAddress s ∨ ∃ a, IsAddress a ∧ s = a ++ "\n") ∧ j = { i with mac := some (Text.lower s) }) ∧
    (IsAddress s → IsSmallAddress (Text.lower s) ∧ Text.lower (s ++ "\n") = Text.lower s ++ "\n") ∧
    (∀ a, IsSmallAddress a → a.length = 17) ∧
    List.Forall₂ (IsStated "\n") d.interfaces d.document.hardwareAddresses ∧
    ∀ text, d.written = .ok text → ∃ e, Element.read? text = some e ∧
      List.Forall₂ (IsStated " ") d.interfaces e.hardwareAddresses := by
  have hstated := Domain.isStated_document d (Domain.isRead_of_reading hd)
  refine ⟨fun j => ?_, fun h => ⟨h.lower, lower_lineFeed h⟩, fun a ha => ha.length, hstated, fun text htext => ?_⟩
  · rw [reading_put hi]
    simp only [macReading_text_eq_valid_iff]
    constructor
    · rintro ⟨_, ⟨hs, rfl⟩, hj⟩
      exact ⟨hs, hj⟩
    · rintro ⟨hs, hj⟩
      exact ⟨_, ⟨hs, rfl⟩, hj⟩
  · have hread := (Declaration.domain d).orderly.framed.read?_render
      (Declaration.render_eq_of_written (s := .domain d) htext)
    refine ⟨_, hread, ?_⟩
    have hvalues : (d.document.asRead 0).hardwareAddresses = d.document.hardwareAddresses.map shown :=
      Element.values_asRead 0 d.document ["devices", "interface", "mac"] "address"
    show List.Forall₂ _ _ (d.document.asRead 0).hardwareAddresses
    rw [hvalues, List.forall₂_map_right_iff]
    exact hstated.imp fun _ _ h => h.shown

/-- An address in capital letters, and a domain with a declared and a derived address. -/
theorem accepts_addresses_inCapitals : ∃ text, Domain.attached.written = .ok text ∧
    reading (.record [("network", .text "lab"), ("mac", .text "52:54:00:AA:BB:CC")]) =
      .valid { network := "lab", mac := some "52:54:00:aa:bb:cc" } ∧
    ∃ e, Element.read? text = some e ∧
      List.Forall₂ (IsStated " ") Domain.attached.interfaces e.hardwareAddresses := by
  have hplain : reading (.mapping [(.text "network", .text "lab")]) = .valid { network := "lab" } := by rfl
  have hread : Domain.reading Domain.attached.dump = .valid Domain.attached := by rfl
  have hwritten : Domain.attached.written = .ok Domain.attached.document.print := by
    rw [Domain.written_eq (by decide), if_pos (Text.isWritable_of_lt (by decide))]
  have haddress : IsAddress "52:54:00:AA:BB:CC" :=
    ⟨[['5', '2'], ['5', '4'], ['0', '0'], ['A', 'A'], ['B', 'B'], ['C', 'C']], rfl, by decide, rfl⟩
  obtain ⟨hgiven, -, -, -, htext⟩ := accepts_addresses hplain hread "52:54:00:AA:BB:CC"
  exact ⟨_, hwritten, (hgiven _).2 ⟨.inl haddress, rfl⟩, htext _ hwritten⟩

end Interface

namespace Domain

/-- A domain whose interface was declared with a line feed behind its address. -/
def lineFed : Domain where
  name := "vm"
  identifier := some ⟨1⟩
  memory := ⟨1, .GiB⟩
  interfaces := [{ network := "lab", mac := some "52:54:00:aa:bb:cc\n" }]

end Domain

namespace Interface

open HardwareAddress

/-- **A line feed slips through**: the text is no address, and what is kept and stated has 18 characters. -/
theorem accepts_lineFeed : ∃ j text e,
    reading (.record [("network", .text "lab"), ("mac", .text "52:54:00:AA:BB:CC\n")]) = .valid j ∧
      ¬ IsAddress "52:54:00:AA:BB:CC\n" ∧ j.mac = some "52:54:00:aa:bb:cc\n" ∧
      Domain.reading Domain.lineFed.dump = .valid Domain.lineFed ∧ Domain.lineFed.interfaces = [j] ∧
      Domain.lineFed.document.hardwareAddresses = ["52:54:00:aa:bb:cc\n"] ∧
      Domain.lineFed.written = .ok text ∧ Element.read? text = some e ∧
      e.hardwareAddresses = ["52:54:00:aa:bb:cc "] ∧ "52:54:00:aa:bb:cc ".length = 18 := by
  have hrender : Domain.lineFed.document.render = .ok Domain.lineFed.document.settle.print := by
    rw [Element.render, if_pos (by decide +kernel)]
  have hwritten : Domain.lineFed.written = .ok Domain.lineFed.document.settle.print := by
    rw [Domain.written, if_pos (Text.isWritable_of_lt (by decide)), hrender]
  have hstated : Domain.lineFed.document.hardwareAddresses = ["52:54:00:aa:bb:cc\n"] := by
    rw [Domain.hardwareAddresses_document]
    rfl
  refine ⟨_, _, _, by rfl, fun h => ?_, rfl, by rfl, rfl, hstated, hwritten,
    (Declaration.domain Domain.lineFed).orderly.framed.read?_render hrender, ?_, rfl⟩
  · exact absurd (length_of_isGroups h) (by decide)
  · -- a reader of attributes takes a line feed for a space
    show (Domain.lineFed.document.asRead 0).hardwareAddresses = _
    rw [Element.hardwareAddresses, Element.values_asRead]
    show Domain.lineFed.document.hardwareAddresses.map shown = _
    rw [hstated]
    decide

end Interface

end VirtualTopology
