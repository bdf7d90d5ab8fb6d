import VirtualTopology.Document.Rendering
import VirtualTopology.Proofs.Text.Spelling
import VirtualTopology.Proofs.Topology.PlainText

/-!
# The documents of declared resources are legible

The document of a resource with plain texts is legible (`Network.legible`, `Pool.legible`,
`Volume.legible`, `Domain.legible`). Besides the declared texts it has some that are made up:
identifiers, addresses, numbers and names of devices. These consist of visible characters of ASCII
(`isSettled_of_isVisible`).
-/

namespace VirtualTopology

open Document Element

/-! ### Legible elements, piece by piece -/

namespace Element

@[simp] theorem legible_mk_iff (tag : String) (attributes : List (String × String)) (lead : String)
    (children : List Element) :
    Legible { tag, attributes, lead, children } ↔
      isWord tag.toList = true ∧ LegibleAttributes attributes ∧
        (∀ a ∈ attributes, IsSettled a.2) ∧ IsSettled lead ∧ ∀ c ∈ children, c.Legible :=
  ⟨fun ⟨h₁, h₂, h₃, h₄, h₅⟩ => ⟨h₁, h₂, h₃, h₄, h₅⟩, fun ⟨h₁, h₂, h₃, h₄, h₅⟩ => ⟨h₁, h₂, h₃, h₄, h₅⟩⟩

end Element

namespace Document

@[simp] theorem legibleAttributes_nil : LegibleAttributes [] :=
  ⟨by simp, by simp, by simp⟩

@[simp] theorem legibleAttributes_cons_iff (a : String × String) (as : List (String × String)) :
    LegibleAttributes (a :: as) ↔
      isWord a.1.toList = true ∧ a.1 ≠ "xmlns" ∧ a.1 ∉ as.map (·.1) ∧ LegibleAttributes as := by
  constructor
  · rintro ⟨hw, hx, hn⟩
    rw [List.map_cons, List.nodup_cons] at hn
    exact ⟨hw a (by simp), hx a (by simp), hn.1, fun b hb => hw b (by simp [hb]),
      fun b hb => hx b (by simp [hb]), hn.2⟩
  · rintro ⟨hw, hx, hn, h⟩
    exact ⟨by simpa [hw] using h.word, by simpa [hx] using h.ne_xmlns,
      List.nodup_cons.2 ⟨hn, h.nodup⟩⟩

end Document

instance (s : String) : Decidable (IsSettled s) :=
  inferInstanceAs (Decidable (∀ c ∈ s.toList, isAllowed c = true ∧ c ≠ '\r'))

/-! ### Texts that are made up -/

/-- A visible character of ASCII. -/
def Text.isVisible (c : Char) : Bool := 0x21 ≤ c.toNat && c.toNat ≤ 0x7e

theorem isSettled_of_isVisible {cs : List Char} (h : ∀ c ∈ cs, Text.isVisible c = true) :
    IsSettled (String.ofList cs) := by
  intro c hc
  rw [String.toList_ofList] at hc
  have hv := h c hc
  simp only [Text.isVisible, Bool.and_eq_true, decide_eq_true_eq] at hv
  refine ⟨?_, ?_⟩
  · simp only [isAllowed, Bool.or_eq_true, Bool.and_eq_true, beq_iff_eq, decide_eq_true_eq]
    omega
  · rintro rfl
    exact absurd hv (by decide)

theorem isVisible_ofNat {n : Nat} (hlow : 0x21 ≤ n) (hhigh : n ≤ 0x7e) :
    Text.isVisible (Char.ofNat n) = true := by
  have hn : (Char.ofNat n).toNat = n := Text.toNat_ofNat_of_isValidChar (.inl (by omega))
  simp [Text.isVisible, hn, hlow, hhigh]

theorem isVisible_of_isSmallHex {c : Char} (h : HardwareAddress.isSmallHex c = true) : Text.isVisible c = true := by
  simp only [HardwareAddress.isSmallHex, Text.isVisible, Bool.or_eq_true, Bool.and_eq_true, decide_eq_true_eq] at h ⊢
  omega

theorem isVisible_hex (width n : Nat) : ∀ c ∈ Text.hex width n, Text.isVisible c = true :=
  fun _ hc => isVisible_of_isSmallHex (HardwareAddress.isSmallHex_of_mem_hex hc)

theorem isVisible_repr (n : Nat) : ∀ c ∈ (toString n).toList, Text.isVisible c = true := by
  intro c hc
  obtain ⟨hlow, hhigh⟩ := Text.toNat_of_isDigit (Text.isDigit_toString n c hc)
  simp only [Text.isVisible, Bool.and_eq_true, decide_eq_true_eq]
  omega

theorem isVisible_int (i : Int) : ∀ c ∈ (toString i).toList, Text.isVisible c = true := by
  cases i with
  | ofNat n => exact isVisible_repr n
  | negSucc n =>
    intro c hc
    rw [Text.toList_negSucc] at hc
    rcases List.mem_cons.1 hc with rfl | hc
    · decide
    · exact isVisible_repr (n + 1) c hc

theorem isVisible_hyphenate (groups : List Nat) {cs : List Char}
    (h : ∀ c ∈ cs, Text.isVisible c = true) :
    ∀ c ∈ Identifier.hyphenate groups cs, Text.isVisible c = true := by
  intro c hc
  rcases Identifier.mem_hyphenate hc with rfl | hc
  · decide
  · exact h c hc

theorem isVisible_identifier (i : Identifier) : ∀ c ∈ i.text.toList, Text.isVisible c = true := by
  rw [Identifier.text, String.toList_ofList]
  exact isVisible_hyphenate _ (isVisible_hex _ _)

@[simp] theorem isSettled_identifier (i : Identifier) : IsSettled i.text :=
  isSettled_of_isVisible (isVisible_hyphenate _ (isVisible_hex _ _))

@[simp] theorem isSettled_nat (n : Nat) : IsSettled n.repr := by
  rw [← String.ofList_toList (s := n.repr)]
  exact isSettled_of_isVisible (isVisible_repr n)

@[simp] theorem isSettled_int (i : Int) : IsSettled i.repr := by
  rw [← String.ofList_toList (s := i.repr)]
  exact isSettled_of_isVisible (isVisible_int i)

theorem isVisible_address (a : Address) : ∀ c ∈ a.text.toList, Text.isVisible c = true := by
  have hdot : a.text.toList = ['.'].intercalate (a.quads.map fun n => (toString n).toList) := by
    rw [Address.text, String.toList_intercalate, List.map_map]
    rfl
  intro c hc
  rw [hdot] at hc
  simp only [Address.quads, List.map_cons, List.map_nil, List.intercalate, List.intersperse,
    List.flatten_cons, List.flatten_nil, List.append_nil, List.mem_append, List.mem_singleton] at hc
  rcases hc with hc | rfl | hc | rfl | hc | rfl | hc
  · exact isVisible_repr _ c hc
  · decide
  · exact isVisible_repr _ c hc
  · decide
  · exact isVisible_repr _ c hc
  · decide
  · exact isVisible_repr _ c hc

@[simp] theorem isSettled_address (a : Address) : IsSettled a.text := by
  rw [← String.ofList_toList (s := a.text)]
  exact isSettled_of_isVisible (isVisible_address a)

theorem isVisible_deviceSuffix (n : Nat) : ∀ c ∈ deviceSuffix n, Text.isVisible c = true := by
  have hletter : ∀ k, Text.isVisible (Char.ofNat (97 + k % 26)) = true := by
    intro k
    have hk : k % 26 < 26 := Nat.mod_lt _ (by decide)
    exact isVisible_ofNat (by omega) (by omega)
  fun_induction deviceSuffix n with
  | case1 n letter h => exact fun c hc => by rw [List.mem_singleton.1 hc]; exact hletter n
  | case2 n letter h ih =>
    rw [List.forall_mem_append]
    exact ⟨ih, fun c hc => by rw [List.mem_singleton.1 hc]; exact hletter n⟩

theorem isSettled_deviceNamesFrom (buses before : List String) :
    ∀ s ∈ deviceNamesFrom before buses, IsSettled s := by
  induction buses generalizing before with
  | nil => simp [deviceNamesFrom]
  | cons bus buses ih =>
    rw [deviceNamesFrom, List.forall_mem_cons]
    refine ⟨?_, ih _⟩
    rw [← String.ofList_toList (s := devicePrefix bus), ← String.ofList_append]
    refine isSettled_of_isVisible (List.forall_mem_append.2 ⟨?_, isVisible_deviceSuffix _⟩)
    unfold devicePrefix
    split
    · decide
    · split <;> decide

theorem isVisible_derive (seed : String) (index : Int) :
    ∀ c ∈ (HardwareAddress.derive seed index).toList, Text.isVisible c = true := by
  intro c hc
  rcases HardwareAddress.mem_derive hc with hhex | rfl
  · exact isVisible_of_isSmallHex hhex
  · decide

@[simp] theorem isSettled_derive (seed : String) (index : Int) :
    IsSettled (HardwareAddress.derive seed index) := by
  rw [← String.ofList_toList (s := HardwareAddress.derive seed index)]
  exact isSettled_of_isVisible (isVisible_derive seed index)

/-! ### Documents -/

theorem Network.legible {n : Network} (h : Text.ArePlain n.texts) : n.document.Legible := by
  have hname := (h n.name (by simp [texts])).isSettled
  have hbridge := (h n.bridge (by simp [texts])).isSettled
  cases hf : n.forward <;> cases hd : n.dhcp <;>
    simp +decide [document, leaf, branch, Element.empty, hname, hbridge, hf, hd]

theorem Pool.legible {p : Pool} (h : Text.ArePlain p.texts) : p.document.Legible := by
  have hname := (h p.name (by simp [texts])).isSettled
  have hkind := (h p.kind (by simp [texts])).isSettled
  have htarget := (h p.target (by simp [texts])).isSettled
  simp +decide [document, leaf, branch, hname, hkind, htarget]

theorem Volume.legible {v : Volume} (h : Text.ArePlain v.texts) : v.document.Legible := by
  have hname := (h v.name (by simp [texts])).isSettled
  have hformat := (h v.format (by simp [texts])).isSettled
  simp +decide [document, leaf, branch, Element.empty, hname, hformat]

namespace Domain

theorem legible_diskElement {k : Disk} (h : Text.ArePlain k.texts) {device : String}
    (hd : IsSettled device) : (diskElement k device).Legible := by
  have hpool := (h k.pool (by simp [Disk.texts])).isSettled
  have hvolume := (h k.volume (by simp [Disk.texts])).isSettled
  have hbus := (h k.bus (by simp [Disk.texts])).isSettled
  have hformat := (h k.format (by simp [Disk.texts])).isSettled
  simp +decide [diskElement, branch, Element.empty, hpool, hvolume, hbus, hformat, hd]

theorem legible_mediumElement {medium device : String} (hm : IsSettled medium)
    (hd : IsSettled device) : (mediumElement medium device).Legible := by
  simp +decide [mediumElement, branch, Element.empty, mediaBus, hm, hd]

theorem legible_shareElement {s : Share} (h : Text.ArePlain s.texts) : (shareElement s).Legible := by
  have hpath := (h s.hostPath (by simp [Share.texts])).isSettled
  have htag := (h s.mountTag (by simp [Share.texts])).isSettled
  cases hb : given s.binaryPath with
  | none => simp +decide [shareElement, branch, Element.empty, hpath, htag, hb]
  | some path =>
    have hbinary : IsSettled path := by
      refine (h path ?_).isSettled
      simp [Share.texts, (Option.filter_eq_some_iff.1 hb).1]
    simp +decide [shareElement, branch, Element.empty, hpath, htag, hb, hbinary]

variable {d : Domain} (h : Text.ArePlain d.texts)

include h

theorem arePlain_disk {k : Disk} (hk : k ∈ d.disks) : Text.ArePlain k.texts := by
  intro s hs
  have hm : s ∈ d.disks.flatMap Disk.texts := List.mem_flatMap.2 ⟨k, hk, hs⟩
  exact h s (by simp only [texts, List.mem_append, hm]; tauto)

theorem arePlain_interface {i : Interface} (hi : i ∈ d.interfaces) : Text.ArePlain i.texts := by
  intro s hs
  have hm : s ∈ d.interfaces.flatMap Interface.texts := List.mem_flatMap.2 ⟨i, hi, hs⟩
  exact h s (by simp only [texts, List.mem_append, hm]; tauto)

theorem arePlain_share {x : Share} (hx : x ∈ d.shares) : Text.ArePlain x.texts := by
  intro s hs
  have hm : s ∈ d.shares.flatMap Share.texts := List.mem_flatMap.2 ⟨x, hx, hs⟩
  exact h s (by simp only [texts, List.mem_append, hm]; tauto)

theorem legible_driveElements : ∀ e ∈ d.driveElements, e.Legible := by
  have hmake : ∀ make ∈ d.disks.map diskElement ++ d.installMedia.map mediumElement,
      ∀ device, IsSettled device → (make device).Legible := by
    rw [List.forall_mem_append, List.forall_mem_map, List.forall_mem_map]
    refine ⟨fun k hk _ hd => legible_diskElement (arePlain_disk h hk) hd, fun m hm _ hd => ?_⟩
    exact legible_mediumElement (h m (by simp [texts, hm])).isSettled hd
  intro e he
  obtain ⟨i, hi, rfl⟩ := List.mem_iff_getElem.1 he
  simp only [driveElements, List.getElem_zipWith]
  exact hmake _ (List.getElem_mem _) _
    (isSettled_deviceNamesFrom d.buses [] _ (List.getElem_mem _))

theorem legible_interfaceElement {i : Interface} (hi : i ∈ d.interfaces) (place : Nat) :
    (d.interfaceElement place i).Legible := by
  have hplain := arePlain_interface h hi
  have hnetwork := (hplain i.network (by simp [Interface.texts])).isSettled
  have hmodel := (hplain i.model (by simp [Interface.texts])).isSettled
  have hmac : IsSettled (d.hardwareAddress place i) := by
    unfold hardwareAddress
    split
    · next mac hm =>
      split
      · exact isSettled_derive _ _
      · exact (hplain mac (by simp [Interface.texts, hm])).isSettled
    · exact isSettled_derive _ _
  simp +decide [interfaceElement, branch, Element.empty, hnetwork, hmodel, hmac]

theorem legible_deviceElements : ∀ e ∈ d.deviceElements, e.Legible := by
  simp only [deviceElements, List.forall_mem_append]
  refine ⟨⟨⟨⟨legible_driveElements h, fun e he => ?_⟩, ?_⟩, ?_⟩, ?_⟩
  · obtain ⟨i, hi, rfl⟩ := List.mem_mapIdx.1 he
    exact legible_interfaceElement h (List.getElem_mem hi) i
  · rw [List.forall_mem_map]
    exact fun s hs => legible_shareElement (arePlain_share h hs)
  · cases d.tpm <;> simp +decide [branch, Element.empty]
  · simp +decide [branch, Element.empty]

theorem legible_startElement : d.startElement.Legible := by
  have hmachine := (h d.machine (by simp [texts])).isSettled
  have hnvram : ∀ path, given d.nvram = some path → IsSettled path := fun path hp =>
    (h path (by simp [texts, (Option.filter_eq_some_iff.1 hp).1])).isSettled
  cases hf : d.firmware <;> cases hn : given d.nvram <;> cases hm : d.installMedia.isEmpty <;>
    simp_all +decide [startElement, branch, leaf, Element.empty]

theorem legible : d.document.Legible := by
  have hname := (h d.name (by simp [texts])).isSettled
  have hstart := legible_startElement h
  have hdevices := legible_deviceElements h
  have hfeatures : d.featureElement.Legible := by
    cases hf : d.firmware <;> simp +decide [featureElement, branch, Element.empty, hf]
  have hclock : clockElement.Legible := by
    simp +decide [clockElement, branch, Element.empty]
  have hmemory : sharedMemory.Legible := by
    simp +decide [sharedMemory, branch, Element.empty]
  cases hs : d.shares.isEmpty <;>
    simpa +decide [document, branch, leaf, Element.empty, hname, hstart, hfeatures, hclock, hmemory,
      hs] using hdevices

end Domain

end VirtualTopology
