import VirtualTopology.Proofs.Document.Matching
import VirtualTopology.Proofs.Document.Rendered

/-!
# Rendered documents are orderly

A document is orderly (`Element.Orderly`) if its names are words, no attribute is given twice, and two children
with the same tag differ in an attribute, unless their order belongs to the declaration. The documents of networks,
pools and domains are orderly, whatever their texts are (`Network.orderly`, `Pool.orderly`, `Domain.orderly`), and so
are the trees that are read of them (`Element.Orderly.asRead`).

A domain whose firmware a host selects, and which names no variable store, leaves the store open; where a document is
known to do so, its element for the start has firmware and no store.
-/

namespace VirtualTopology

open Document

namespace Document

/-- A text as it is read from the value of an attribute. -/
def shown (s : String) : String := flatten (Text.unified s)

theorem shown_shown (s : String) : shown (shown s) = shown s := by
  have hmem : ∀ c ∈ (shown s).toList, isWhite c = true → c = ' ' := by
    intro c hc hwhite
    rw [shown, flatten, String.toList_ofList] at hc
    obtain ⟨d, -, rfl⟩ := List.mem_map.1 hc
    unfold flattenChar at hwhite ⊢
    split
    · rfl
    · next hd => rw [if_neg hd] at hwhite; exact absurd hwhite hd
  have hcr : '\r' ∉ (shown s).toList := fun hc => absurd (hmem _ hc (by decide)) (by decide)
  rw [shown, Text.unified, Element.unifyLines_eq_self hcr, String.ofList_toList, flatten_eq_self hmem]

end Document

namespace Element

/-- Whether an attribute, other than one of a machine, tells two elements apart. -/
structure Differ (c e : Element) : Prop where
  tag_ne : c.tag ≠ "type"
  told : ∃ name v w, (name, v) ∈ c.attributes ∧ (name, w) ∈ e.attributes ∧ shown v ≠ shown w

/-- Whether two children of an element with a tag are told apart, by their order or by an attribute. -/
def Apart (tag : String) (c e : Element) : Prop :=
  c.tag = e.tag → c.tag ∈ (Ownership.of tag).children ∨ c.Differ e

/-- Whether a host may make up a variable store for a domain that leaves it open. -/
def TakesStore (tag : String) (attributes : List (String × String)) (children : List Element) : Prop :=
  tag = "os" → (attributes.lookup "firmware").isSome = true ∧ ∀ c ∈ children, c.tag ≠ "nvram"

/-- An element in which names are words, attributes are given once, and children are told apart. -/
inductive Orderly (storeOpen : Prop) : Element → Prop where
  | mk {tag : String} {attributes : List (String × String)} {lead : String} {children : List Element}
      (word : isWord tag.toList = true) (legible : LegibleAttributes attributes)
      (apart : children.Pairwise (Apart tag)) (store : storeOpen → TakesStore tag attributes children)
      (inside : ∀ c ∈ children, Orderly storeOpen c) : Orderly storeOpen { tag, attributes, lead, children }

@[simp] theorem orderly_mk_iff (storeOpen : Prop) (tag : String) (attributes : List (String × String)) (lead : String)
    (children : List Element) :
    Orderly storeOpen { tag, attributes, lead, children } ↔
      isWord tag.toList = true ∧ LegibleAttributes attributes ∧ children.Pairwise (Apart tag) ∧
        (storeOpen → TakesStore tag attributes children) ∧ ∀ c ∈ children, c.Orderly storeOpen :=
  ⟨fun ⟨h₁, h₂, h₃, h₄, h₅⟩ => ⟨h₁, h₂, h₃, h₄, h₅⟩, fun ⟨h₁, h₂, h₃, h₄, h₅⟩ => ⟨h₁, h₂, h₃, h₄, h₅⟩⟩

theorem Orderly.framed {storeOpen : Prop} {e : Element} (he : e.Orderly storeOpen) : e.Framed := by
  induction he with
  | mk word legible _ _ _ ih => exact ⟨word, legible, ih⟩

/-! ### Elements that are read -/

@[simp] theorem tag_unify (e : Element) : e.unify.tag = e.tag := by
  obtain ⟨tag, attributes, lead, children⟩ := e
  simp [unify]

@[simp] theorem tag_asRead (indent : Nat) (e : Element) : (e.asRead indent).tag = e.tag := by simp [asRead]

theorem asRead_mk (indent : Nat) (tag : String) (attributes : List (String × String)) (lead : String)
    (children : List Element) : asRead indent { tag, attributes, lead, children } =
      { tag, attributes := attributes.map fun a => (a.1, shown a.2)
        lead := (asRead indent { tag, attributes, lead, children }).lead
        children := children.map (asRead (indent + 2)) } := by
  simp only [asRead, unify, readBack, unifyAll_eq_map, readBackAll_eq_map, List.map_map, flattenAll]
  rfl

theorem attributes_asRead (indent : Nat) (e : Element) :
    (e.asRead indent).attributes = e.attributes.map fun a => (a.1, shown a.2) := by
  obtain ⟨tag, attributes, lead, children⟩ := e
  rw [asRead_mk]

theorem Differ.asRead {c e : Element} (h : c.Differ e) (indent : Nat) :
    (c.asRead indent).Differ (e.asRead indent) := by
  obtain ⟨htag, name, v, w, hv, hw, hne⟩ := h
  refine ⟨by rwa [tag_asRead], name, shown v, shown w, ?_, ?_, by rwa [shown_shown, shown_shown]⟩
  · rw [attributes_asRead]
    exact List.mem_map.2 ⟨(name, v), hv, rfl⟩
  · rw [attributes_asRead]
    exact List.mem_map.2 ⟨(name, w), hw, rfl⟩

theorem Apart.asRead {tag : String} {c e : Element} (h : Apart tag c e) (indent : Nat) :
    Apart tag (c.asRead indent) (e.asRead indent) := by
  rw [Apart, tag_asRead, tag_asRead]
  exact fun hsame => (h hsame).imp_right fun hdiffer => hdiffer.asRead indent

theorem lookup_map_shown (attributes : List (String × String)) (name : String) :
    (attributes.map fun a => (a.1, shown a.2)).lookup name = (attributes.lookup name).map shown := by
  induction attributes with
  | nil => rfl
  | cons a as ih =>
    rw [List.map_cons, List.lookup_cons, List.lookup_cons]
    cases name == a.1 with
    | true => rfl
    | false => exact ih

/-- **An orderly element is read as an orderly one.** -/
theorem Orderly.asRead {storeOpen : Prop} {e : Element} (he : e.Orderly storeOpen) (indent : Nat) :
    (e.asRead indent).Orderly storeOpen := by
  induction he generalizing indent with
  | @mk tag attributes lead children word legible apart store _ ih =>
    have hnames : (attributes.map fun a => (a.1, shown a.2)).map (·.1) = attributes.map (·.1) := by simp
    rw [asRead_mk, orderly_mk_iff]
    refine ⟨word, ⟨?_, ?_, hnames ▸ legible.nodup⟩, ?_, fun hopen => ?_, ?_⟩
    · exact List.forall_mem_map.2 fun a ha => legible.word a ha
    · exact List.forall_mem_map.2 fun a ha => legible.ne_xmlns a ha
    · exact List.pairwise_map.2 (apart.imp fun h => h.asRead _)
    · intro htag
      obtain ⟨hfirmware, hnone⟩ := store hopen htag
      refine ⟨by rwa [lookup_map_shown, Option.isSome_map], List.forall_mem_map.2 fun c hc => ?_⟩
      rw [tag_asRead]
      exact hnone c hc
    · exact List.forall_mem_map.2 fun c hc => ih c hc _

end Element

/-! ### Documents -/

open Element

variable {storeOpen : Prop}

theorem Network.orderly (n : Network) : n.document.Orderly storeOpen := by
  cases hf : n.forward <;> cases hd : n.dhcp <;>
    simp +decide [document, leaf, branch, Element.empty, hf, hd, Apart, TakesStore]

theorem Pool.orderly (p : Pool) : p.document.Orderly storeOpen := by
  simp +decide [document, leaf, branch, Apart, TakesStore]

namespace Domain

/-- The timers of the clock have names of their own. -/
theorem orderly_clockElement : clockElement.Orderly storeOpen := by
  have hdiffer : ∀ {v w : String} {as bs : List (String × String)}, ("name", v) ∈ as → ("name", w) ∈ bs →
      shown v ≠ shown w → Apart "clock" (Element.empty "timer" as) (Element.empty "timer" bs) :=
    fun hv hw hne _ => .inr ⟨show "timer" ≠ "type" by decide, "name", _, _, hv, hw, hne⟩
  have hrtcPit : shown "rtc" ≠ shown "pit" := by decide
  have hrtcHpet : shown "rtc" ≠ shown "hpet" := by decide
  have hpitHpet : shown "pit" ≠ shown "hpet" := by decide
  refine .mk (by decide) (by simp +decide) ?_ (fun _ hstart => absurd hstart (by decide)) ?_
  · rw [List.pairwise_cons, List.pairwise_cons, List.forall_mem_cons, List.forall_mem_cons, List.forall_mem_cons]
    exact ⟨⟨hdiffer (by simp) (by simp) hrtcPit, hdiffer (by simp) (by simp) hrtcHpet, by simp⟩,
      ⟨hdiffer (by simp) (by simp) hpitHpet, by simp⟩, List.pairwise_singleton _ _⟩
  · simp +decide [Element.empty, TakesStore]

/-- So have the features of the firmware. -/
theorem orderly_firmware : (branch "firmware"
    [Element.empty "feature" [("enabled", "yes"), ("name", "secure-boot")],
     Element.empty "feature" [("enabled", "yes"), ("name", "enrolled-keys")]]).Orderly storeOpen := by
  have hne : shown "secure-boot" ≠ shown "enrolled-keys" := by decide
  have happart : Apart "firmware" (Element.empty "feature" [("enabled", "yes"), ("name", "secure-boot")])
      (Element.empty "feature" [("enabled", "yes"), ("name", "enrolled-keys")]) :=
    fun _ => .inr ⟨show "feature" ≠ "type" by decide, "name", _, _, by simp [Element.empty],
      by simp [Element.empty], hne⟩
  refine .mk (by decide) (by simp) (List.pairwise_pair.2 happart) (fun _ hstart => absurd hstart (by decide)) ?_
  simp +decide [Element.empty, TakesStore]

theorem orderly_diskElement (k : Disk) (device : String) : (diskElement k device).Orderly storeOpen := by
  simp +decide [diskElement, branch, Element.empty, Apart, TakesStore]

theorem orderly_mediumElement (medium device : String) : (mediumElement medium device).Orderly storeOpen := by
  simp +decide [mediumElement, branch, Element.empty, Apart, TakesStore]

theorem orderly_interfaceElement (d : Domain) (place : Nat) (i : Interface) :
    (d.interfaceElement place i).Orderly storeOpen := by
  simp +decide [interfaceElement, branch, Element.empty, Apart, TakesStore]

theorem orderly_shareElement (s : Share) : (shareElement s).Orderly storeOpen := by
  cases hb : given s.binaryPath <;> simp +decide [shareElement, branch, Element.empty, hb, Apart, TakesStore]

/-- Drives, interfaces, shares and the trusted platform module are in the order of the declaration, and of the others
there is one each. -/
theorem orderly_devices (d : Domain) : (branch "devices" d.deviceElements).Orderly storeOpen := by
  have hdrives : ∀ e ∈ d.driveElements, e.tag ∈ (Ownership.of "devices").children ∧ e.Orderly storeOpen := by
    intro e he
    rcases mem_driveElements he with ⟨k, -, device, rfl⟩ | ⟨medium, device, rfl⟩
    · exact ⟨show "disk" ∈ _ by decide, orderly_diskElement k device⟩
    · exact ⟨show "disk" ∈ _ by decide, orderly_mediumElement medium device⟩
  have hinterfaces : ∀ e ∈ d.interfaces.mapIdx d.interfaceElement,
      e.tag ∈ (Ownership.of "devices").children ∧ e.Orderly storeOpen := by
    intro e he
    obtain ⟨i, hi, rfl⟩ := List.mem_mapIdx.1 he
    exact ⟨show "interface" ∈ _ by decide, orderly_interfaceElement d i _⟩
  have hshares : ∀ e ∈ d.shares.map shareElement,
      e.tag ∈ (Ownership.of "devices").children ∧ e.Orderly storeOpen := by
    intro e he
    obtain ⟨s, -, rfl⟩ := List.mem_map.1 he
    exact ⟨show "filesystem" ∈ _ by decide, orderly_shareElement s⟩
  have htpm : ∀ e ∈ (if d.tpm then
      [branch "tpm" [Element.empty "backend" [("type", "emulator"), ("version", "2.0")]] [("model", "tpm-tis")]]
      else []), e.tag ∈ (Ownership.of "devices").children ∧ e.Orderly storeOpen := by
    intro e he
    split at he
    · obtain rfl := List.mem_singleton.1 he
      exact ⟨show "tpm" ∈ _ by decide, by simp +decide [branch, Element.empty, TakesStore]⟩
    · exact absurd he (by simp)
  -- the devices in front have tags that are kept in order, and those behind them are apart from each other
  have hfront := List.forall_mem_append.2 ⟨List.forall_mem_append.2 ⟨List.forall_mem_append.2 ⟨hdrives, hinterfaces⟩,
    hshares⟩, htpm⟩
  refine .mk (by decide) (by simp) ?_ (fun _ hstart => absurd hstart (by decide)) ?_
  · rw [deviceElements, List.pairwise_append]
    refine ⟨List.pairwise_of_forall_mem_list fun c hc e _ _ => .inl (hfront c hc).1, ?_,
      fun c hc e _ _ => .inl (hfront c hc).1⟩
    simp +decide [branch, Element.empty, Apart]
  · rw [deviceElements, List.forall_mem_append]
    refine ⟨fun e he => (hfront e he).2, ?_⟩
    simp +decide [branch, Element.empty, Apart, TakesStore]

/-- A host makes up a store only where firmware is selected and no store is named. -/
theorem orderly_startElement (d : Domain) (hstore : storeOpen → d.firmware = .uefi ∧ given d.nvram = none) :
    d.startElement.Orderly storeOpen := by
  have hfirmware : (branch "firmware"
      [Element.empty "feature" [("enabled", "yes"), ("name", "secure-boot")],
       Element.empty "feature" [("enabled", "yes"), ("name", "enrolled-keys")]]).Orderly storeOpen := orderly_firmware
  rw [branch] at hfirmware
  cases hf : d.firmware <;> cases hn : given d.nvram <;> cases hm : d.installMedia.isEmpty <;>
    simp_all +decide [startElement, branch, leaf, Element.empty, Apart, TakesStore]

theorem orderly (d : Domain) (hstore : storeOpen → d.firmware = .uefi ∧ given d.nvram = none) :
    d.document.Orderly storeOpen := by
  have hstart := orderly_startElement d hstore
  have hdevices : (branch "devices" d.deviceElements).Orderly storeOpen := orderly_devices d
  have hclock : clockElement.Orderly storeOpen := orderly_clockElement
  have hfeatures : d.featureElement.Orderly storeOpen := by
    cases hf : d.firmware <;> simp +decide [featureElement, branch, Element.empty, hf, Apart, TakesStore]
  have hmemory : sharedMemory.Orderly storeOpen := by
    simp +decide [sharedMemory, branch, Element.empty, Apart, TakesStore]
  have htags : d.featureElement.tag = "features" ∧ clockElement.tag = "clock" ∧ sharedMemory.tag = "memoryBacking" :=
    ⟨rfl, rfl, rfl⟩
  cases hs : d.shares.isEmpty <;>
    simp_all +decide [document, branch, leaf, Element.empty, Apart, TakesStore]

end Domain

end VirtualTopology
