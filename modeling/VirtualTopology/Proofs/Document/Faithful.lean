import VirtualTopology.Proofs.Data.Settling
import VirtualTopology.Proofs.Document.Decoration
import VirtualTopology.Proofs.Document.Exactness

/-!
# What is rendered is read back as declared

Whatever the texts of a resource are, its document, once written, says what is declared: its name, and for a domain the
networks, models and hardware addresses of the interfaces in order, and the networks and pools that it refers to
(`reads_written`). This is what lookups by name rest on, and the question whether a network or a pool is in use.

There is one loss. Line ends in a name come back as line feeds, and in the value of an attribute line ends and tabs come
back as spaces (`Document.shown`). A name without a carriage return and values on one line come back as they are
(`Text.OnOneLine`); a network with a tab in its name does not (`Domain.reads_otherwise`), so that a domain which uses it
refers to another network.

The route is that of a tree with other texts: what is read of a document has its shape
(`Element.keepsShape_asRead`), so that each part of it is the part of the document, read.
-/

namespace VirtualTopology

open Document Element

/-! ### Texts -/

/-- Whether a text has no line ends and no tabs. -/
def Text.OnOneLine (s : String) : Prop := ∀ c ∈ s.toList, c ≠ '\t' ∧ c ≠ '\n' ∧ c ≠ '\r'

instance (s : String) : Decidable (Text.OnOneLine s) :=
  inferInstanceAs (Decidable (∀ c ∈ s.toList, c ≠ '\t' ∧ c ≠ '\n' ∧ c ≠ '\r'))

theorem Text.unified_eq_self {s : String} (h : '\r' ∉ s.toList) : unified s = s := by
  rw [unified, Element.unifyLines_eq_self h, String.ofList_toList]

theorem Text.onOneLine_of_isVisible {s : String} (h : ∀ c ∈ s.toList, isVisible c = true) : OnOneLine s := by
  intro c hc
  have hvisible := h c hc
  refine ⟨?_, ?_, ?_⟩ <;> (rintro rfl; exact absurd hvisible (by decide))

namespace Document

/-- **A text on one line is shown as it is.** -/
theorem shown_eq_self {s : String} (h : Text.OnOneLine s) : shown s = s := by
  rw [shown, Text.unified_eq_self fun hc => (h _ hc).2.2 rfl]
  refine flatten_eq_self fun c hc hwhite => ?_
  obtain ⟨htab, hfeed, hreturn⟩ := h c hc
  simpa [isWhite, htab, hfeed, hreturn] using hwhite

/-- What is shown of a text are its characters, and spaces. -/
theorem mem_shown {s : String} {c : Char} (h : c ∈ (shown s).toList) : c = ' ' ∨ c ∈ s.toList := by
  rw [shown, flatten, String.toList_ofList, Text.unified, String.toList_ofList] at h
  obtain ⟨d, hd, rfl⟩ := List.mem_map.1 h
  unfold flattenChar
  split
  · exact .inl rfl
  · next hblack =>
    rcases Text.mem_unifyLines hd with rfl | hmem
    · exact absurd rfl hblack
    · exact .inr hmem

theorem unifyLines_ne_nil {cs : List Char} (h : cs ≠ []) : Text.unifyLines cs ≠ [] := by
  fun_cases Text.unifyLines cs with
  | case1 | case2 | case3 => simp
  | case4 => exact absurd rfl h

theorem shown_ne_empty {s : String} (h : s ≠ "") : shown s ≠ "" := by
  have hunified : Text.unifyLines s.toList ≠ [] := unifyLines_ne_nil (by simpa using h)
  rw [Ne, ← String.toList_eq_nil_iff, shown, flatten, Text.unified, String.toList_ofList, String.toList_ofList,
    List.map_eq_nil_iff]
  exact hunified

end Document

/-! ### Elements that are read -/

namespace Element

theorem children_asRead (indent : Nat) (e : Element) :
    (e.asRead indent).children = e.children.map (asRead (indent + 2)) := by
  obtain ⟨tag, attributes, lead, children⟩ := e
  rw [asRead_mk]

theorem keepsShape_asRead : KeepsShape asRead := ⟨tag_asRead, children_asRead⟩

theorem attribute?_asRead (indent : Nat) (e : Element) (name : String) :
    (e.asRead indent).attribute? name = (e.attribute? name).map shown := by
  rw [attribute?, attribute?, attributes_asRead, lookup_map_shown]

/-- The values of an attribute at the end of a path are read as they are shown. -/
theorem values_asRead (indent : Nat) (e : Element) (path : List String) (name : String) :
    ((e.asRead indent).descend path).filterMap (·.attribute? name) =
      ((e.descend path).filterMap (·.attribute? name)).map shown := by
  rw [keepsShape_asRead.descend_eq, List.filterMap_map, List.map_filterMap]
  exact List.filterMap_congr fun x _ => attribute?_asRead _ x name

/-- A value that is given is given when it is read. -/
theorem given?_asRead (indent : Nat) {e : Element} {name value : String} (h : e.attribute? name = some value)
    (hne : value ≠ "") : (e.asRead indent).given? name = some (shown value) := by
  rw [given?, attribute?_asRead, h, Option.map_some]
  simp [Option.filter, shown_ne_empty hne]

theorem lead_asRead (indent : Nat) (tag lead : String) (attributes : List (String × String)) :
    ((leaf tag lead attributes).asRead indent).lead = Text.unified lead := by
  rw [leaf, asRead, unify, unifyAll_eq_map]
  exact lead_readBack indent rfl

theorem resourceName?_asRead (indent : Nat) {e : Element} {name : String}
    (h : e.first? "name" = some (leaf "name" name)) : (e.asRead indent).resourceName? = some (Text.unified name) := by
  rw [resourceName?, keepsShape_asRead.first?_eq, h, Option.map_some, Option.map_some, lead_asRead]

end Element

/-! ### Names -/

/-- Whether a text is a document that says that its resource has a name. A carriage return in the name is read as a line
feed. -/
structure Names (text name : String) : Prop where
  read : (Element.read? text).bind resourceName? = some (Text.unified name)
  unchanged : '\r' ∉ name.toList → (Element.read? text).bind resourceName? = some name

/-- **Whatever renders says its name.** -/
theorem Element.Framed.names {e : Element} (he : e.Framed) {text name : String} (h : e.render = .ok text)
    (hname : e.first? "name" = some (leaf "name" name)) : Names text name := by
  have hread : (Element.read? text).bind resourceName? = some (Text.unified name) := by
    rw [he.read?_render h, Option.bind_some]
    exact resourceName?_asRead 0 hname
  refine ⟨hread, fun hreturn => ?_⟩
  rw [hread, Text.unified_eq_self hreturn]

theorem Volume.framed (v : Volume) : v.document.Framed := by
  simp +decide [document, branch, leaf, Element.empty]

/-! ### Interfaces, networks and pools of a domain -/

namespace Domain

variable {d : Domain} {i : Interface} {k : Disk}

/-- What the reading of a domain makes sure of: networks and pools have names, and hardware addresses have passed. -/
structure IsRead (d : Domain) : Prop where
  network_ne : ∀ i ∈ d.interfaces, i.network ≠ ""
  mac_accepted : ∀ i ∈ d.interfaces, ∀ mac, i.mac = some mac → HardwareAddress.accepts mac.toList = true
  pool_ne : ∀ k ∈ d.disks, k.pool ≠ ""

/-- What is read of the document of a domain, if its values are read in some way. -/
structure ReadsAs (value : String → String) (d : Domain) (e : Element) : Prop where
  /-- The interfaces, in order, each with its own hardware address or the one that is derived for it. -/
  interfaces : e.interfaceEntries = d.interfaces.mapIdx fun place i =>
    { network := some (value i.network), model := some (value i.model)
      mac := some (value (d.hardwareAddress place i)) }
  networks : e.networkReferences = d.interfaces.map (value ·.network)
  pools : e.poolReferences = d.disks.map (value ·.pool)

theorem descend_devices (d : Domain) (path : List String) :
    d.document.descend ("devices" :: path) = (branch "devices" d.deviceElements).descend path := by
  have hall : d.document.all "devices" = [branch "devices" d.deviceElements] :=
    (all_document d (by decide)).trans rfl
  rw [descend, hall, List.flatMap_singleton]

theorem descend_interfaces (d : Domain) :
    d.document.descend ["devices", "interface"] = d.interfaces.mapIdx d.interfaceElement := by
  rw [descend_devices, descend, all_devices]
  cases d.tpm <;> simp [descend, branch, Element.empty]

/-- What the sources of drives name: the volume of a disk, or the file of an install medium. -/
def driveSource : Disk ⊕ String → Element
  | .inl k => Element.empty "source" [("pool", k.pool), ("volume", k.volume)]
  | .inr medium => Element.empty "source" [("file", medium)]

/-- The sources of drives do not depend on the names of their devices. -/
theorem flatMap_source_zipWith {xs : List (Disk ⊕ String)} {devices : List String} (h : xs.length = devices.length) :
    (List.zipWith driveElement xs devices).flatMap (·.all "source") = xs.map driveSource := by
  induction xs generalizing devices with
  | nil => rfl
  | cons x xs ih =>
    cases devices with
    | nil => exact absurd h (by simp)
    | cons device devices =>
      have hsource : (driveElement x device).all "source" = [driveSource x] := by
        cases x <;> rfl
      rw [List.zipWith_cons_cons, List.flatMap_cons, hsource, ih (by simpa using h)]
      rfl

theorem descend_drives (d : Domain) : d.document.descend ["devices", "disk", "source"] = d.drives.map driveSource := by
  have hdisks : (branch "devices" d.deviceElements).all "disk" = d.driveElements := by
    rw [all_devices]
    cases d.tpm <;> simp [branch, Element.empty]
  have hleaf : ∀ c : Element, c.descend ["source"] = c.all "source" := by
    intro c
    simp [descend]
  rw [descend_devices, descend, hdisks, driveElements_eq, ← flatMap_source_zipWith d.length_drives]
  exact List.flatMap_congr fun c _ => hleaf c

/-- What stands in the elements of the interfaces, if each of them has one child with a tag. -/
theorem descend_interfaces_child (d : Domain) {tag : String} {child : Nat → Interface → Element}
    (h : ∀ place i, (d.interfaceElement place i).all tag = [child place i]) :
    d.document.descend ["devices", "interface", tag] = d.interfaces.mapIdx child := by
  calc d.document.descend (["devices", "interface"] ++ [tag])
    _ = (d.interfaces.mapIdx d.interfaceElement).flatMap (·.all tag) := by rw [descend_concat, descend_interfaces]
    _ = d.interfaces.zipIdx.flatMap fun x => [child x.2 x.1] := by
      rw [List.mapIdx_eq_zipIdx_map, List.flatMap_map]
      exact List.flatMap_congr fun x _ => h x.2 x.1
    _ = d.interfaces.mapIdx child := by
      rw [List.mapIdx_eq_zipIdx_map, List.map_eq_flatMap]

theorem descend_sources (d : Domain) : d.document.descend ["devices", "interface", "source"] =
    d.interfaces.map fun i => Element.empty "source" [("network", i.network)] := by
  calc d.document.descend ["devices", "interface", "source"]
    _ = d.interfaces.mapIdx fun _ i => Element.empty "source" [("network", i.network)] :=
      d.descend_interfaces_child fun _ _ => rfl
    -- the place of an interface has no part in its source
    _ = _ := List.ext_getElem (by simp) (by simp)

/-! ### Reading -/

theorem hardwareAddress_ne_empty (d : Domain) (place : Nat) (i : Interface) : d.hardwareAddress place i ≠ "" := by
  have hderived : ∀ seed index, HardwareAddress.derive seed index ≠ "" := by
    intro seed index h
    have hchars := String.toList_eq_nil_iff.2 h
    rw [HardwareAddress.derive, String.toList_ofList] at hchars
    exact absurd (List.append_eq_nil_iff.1 hchars).1 (by decide)
  unfold hardwareAddress
  split
  · split
    · exact hderived _ _
    · next hne => simpa using hne
  · exact hderived _ _

/-- The hardware address of an interface is in small letters, also as it is shown. -/
theorem lower_shown_hardwareAddress (hmac : ∀ mac, i.mac = some mac → HardwareAddress.accepts mac.toList = true)
    (place : Nat) : Text.lower (shown (d.hardwareAddress place i)) = shown (d.hardwareAddress place i) := by
  have hmem : ∀ c ∈ (d.hardwareAddress place i).toList,
      HardwareAddress.isSmallHex c = true ∨ c = ':' ∨ c = '\n' := by
    intro c hc
    have hderived : c ∈ (HardwareAddress.derive d.resolvedIdentifier.text place).toList →
        HardwareAddress.isSmallHex c = true ∨ c = ':' ∨ c = '\n' := fun h => (HardwareAddress.mem_derive h).imp_right .inl
    unfold hardwareAddress at hc
    split at hc
    · next mac hdeclared =>
      split at hc
      · exact hderived hc
      · exact HardwareAddress.mem_of_acceptsPairs (hmac mac hdeclared) c hc
    · exact hderived hc
  refine HardwareAddress.lower_eq_self_of_mem fun c hc => ?_
  rcases mem_shown hc with rfl | hc
  · exact .inr (by simp)
  · rcases hmem c hc with hhex | rfl | rfl
    · exact .inl hhex
    · exact .inr (by simp)
    · exact .inr (by simp)

/-- **What is read of the element of an interface.** -/
theorem interfaceEntry_asRead (indent place : Nat) (hnetwork : i.network ≠ "")
    (hmac : ∀ mac, i.mac = some mac → HardwareAddress.accepts mac.toList = true) :
    ((d.interfaceElement place i).asRead indent).interfaceEntry =
      { network := some (shown i.network), model := some (shown i.model)
        mac := some (shown (d.hardwareAddress place i)) } := by
  have hsource : (d.interfaceElement place i).first? "source" =
      some (Element.empty "source" [("network", i.network)]) := rfl
  have hmodel : (d.interfaceElement place i).first? "model" = some (Element.empty "model" [("type", i.model)]) := rfl
  have haddress : (d.interfaceElement place i).first? "mac" =
      some (Element.empty "mac" [("address", d.hardwareAddress place i)]) := rfl
  have hgiven : ((Element.empty "source" [("network", i.network)]).asRead (indent + 2)).given? "network" =
      some (shown i.network) := given?_asRead _ rfl hnetwork
  have hvalue : ((Element.empty "mac" [("address", d.hardwareAddress place i)]).asRead (indent + 2)).given? "address" =
      some (shown (d.hardwareAddress place i)) := given?_asRead _ rfl (d.hardwareAddress_ne_empty place i)
  have htype : ((Element.empty "model" [("type", i.model)]).asRead (indent + 2)).attribute? "type" =
      some (shown i.model) := attribute?_asRead _ _ _
  simp only [interfaceEntry, keepsShape_asRead.first?_eq, hsource, hmodel, haddress, Option.map_some,
    Option.bind_some, sourceNetwork?, hgiven, hvalue, htype, lower_shown_hardwareAddress hmac]
  rfl

theorem interfaceEntries_asRead (h : d.IsRead) : (d.document.asRead 0).interfaceEntries =
    d.interfaces.mapIdx fun place i =>
      { network := some (shown i.network), model := some (shown i.model)
        mac := some (shown (d.hardwareAddress place i)) } := by
  rw [interfaceEntries, keepsShape_asRead.descend_eq, descend_interfaces, List.map_map]
  refine List.ext_getElem (by simp) fun place hplace _ => ?_
  have hlt : place < d.interfaces.length := by simpa using hplace
  have hmem : d.interfaces[place] ∈ d.interfaces := List.getElem_mem hlt
  rw [List.getElem_map, List.getElem_mapIdx, List.getElem_mapIdx]
  exact interfaceEntry_asRead _ place (h.network_ne _ hmem) (h.mac_accepted _ hmem)

/-- Elements that all have a value give a list of the values. -/
theorem filterMap_map_eq {α : Type} {xs : List α} {make : α → Element} {value? : Element → Option String}
    {value : α → String} (h : ∀ x ∈ xs, value? (make x) = some (value x)) :
    (xs.map make).filterMap value? = xs.map value := by
  rw [List.filterMap_map]
  exact (List.filterMap_congr h).trans (congrFun List.filterMap_eq_map xs)

theorem networkReferences_asRead (h : d.IsRead) :
    (d.document.asRead 0).networkReferences = d.interfaces.map (shown ·.network) := by
  rw [networkReferences, keepsShape_asRead.descend_eq, descend_sources, List.map_map]
  exact filterMap_map_eq fun i hi => given?_asRead _ rfl (h.network_ne i hi)

theorem poolReferences_asRead (h : d.IsRead) :
    (d.document.asRead 0).poolReferences = d.disks.map (shown ·.pool) := by
  have hdisks : ∀ indent, ((d.disks.map .inl).map (asRead indent ∘ driveSource)).filterMap (·.given? "pool") =
      d.disks.map (shown ·.pool) := by
    intro indent
    rw [List.map_map]
    exact filterMap_map_eq fun k hk => given?_asRead _ rfl (h.pool_ne k hk)
  -- an install medium refers to no pool
  have hmedia : ∀ indent,
      ((d.installMedia.map .inr).map (asRead indent ∘ driveSource)).filterMap (·.given? "pool") = [] := by
    intro indent
    rw [List.map_map, List.filterMap_eq_nil_iff]
    refine List.forall_mem_map.2 fun medium _ => ?_
    show ((driveSource (.inr medium)).asRead indent).given? "pool" = none
    rw [given?, attribute?_asRead]
    rfl
  rw [poolReferences, keepsShape_asRead.descend_eq, descend_drives, drives, List.map_map, List.map_append,
    List.filterMap_append, hdisks, hmedia, List.append_nil]

/-- **What is read of the document of a domain** is what is declared, as the values of attributes are shown. -/
theorem readsAs_shown (h : d.IsRead) : d.ReadsAs shown (d.document.asRead 0) :=
  ⟨interfaceEntries_asRead h, networkReferences_asRead h, poolReferences_asRead h⟩

/-! ### Domains whose values are on one line -/

/-- Whether the values that tell the interfaces and the pools of a domain are on one line. -/
structure IsOnOneLine (d : Domain) : Prop where
  network : ∀ i ∈ d.interfaces, Text.OnOneLine i.network
  model : ∀ i ∈ d.interfaces, Text.OnOneLine i.model
  mac : ∀ i ∈ d.interfaces, ∀ mac, i.mac = some mac → Text.OnOneLine mac
  pool : ∀ k ∈ d.disks, Text.OnOneLine k.pool

theorem onOneLine_hardwareAddress (hmac : ∀ mac, i.mac = some mac → Text.OnOneLine mac) (place : Nat) :
    Text.OnOneLine (d.hardwareAddress place i) := by
  have hderived := Text.onOneLine_of_isVisible (isVisible_derive d.resolvedIdentifier.text place)
  unfold hardwareAddress
  split
  · next mac hdeclared =>
    split
    · exact hderived
    · exact hmac mac hdeclared
  · exact hderived

/-- **Values on one line are read as they are declared.** -/
theorem ReadsAs.declared {e : Element} (h : d.ReadsAs shown e) (hline : d.IsOnOneLine) : d.ReadsAs id e where
  interfaces := by
    rw [h.interfaces, List.mapIdx_eq_mapIdx_iff]
    intro place hplace
    have hmem : d.interfaces[place] ∈ d.interfaces := List.getElem_mem hplace
    rw [shown_eq_self (hline.network _ hmem), shown_eq_self (hline.model _ hmem),
      shown_eq_self (onOneLine_hardwareAddress (hline.mac _ hmem) place)]
    rfl
  networks := h.networks.trans (List.map_congr_left fun i hi => shown_eq_self (hline.network i hi))
  pools := h.pools.trans (List.map_congr_left fun k hk => shown_eq_self (hline.pool k hk))

end Domain

/-! ### Domains that were read -/

theorem Disk.pool_ne_of_reading {data : Data} {k : Disk} (h : reading data = .valid k) : k.pool ≠ "" := by
  obtain ⟨m, hm⟩ := Reading.eq_valid_of_record h
  have hfields := Reading.eq_valid_of_sealed hm
  simp only [Checked.seq_eq_valid_iff, Checked.map_eq_valid_iff] at hfields
  obtain ⟨_, format, ⟨_, bus, ⟨_, volume, ⟨pool, hpool, rfl⟩, -, rfl⟩, -, rfl⟩, -, rfl⟩ := hfields
  obtain ⟨e, he⟩ := Reading.read_of_required hpool
  exact (Reading.whole_of_name he).1

namespace Interface

theorem of_reading {data : Data} {i : Interface} (h : reading data = .valid i) :
    i.network ≠ "" ∧ ∀ mac, i.mac = some mac → HardwareAddress.accepts mac.toList = true := by
  obtain ⟨m, hm⟩ := Reading.eq_valid_of_record h
  have hfields := Reading.eq_valid_of_sealed hm
  simp only [Checked.seq_eq_valid_iff, Checked.map_eq_valid_iff] at hfields
  obtain ⟨_, address, ⟨_, mac, ⟨_, model, ⟨network, hnetwork, rfl⟩, -, rfl⟩, hmac, rfl⟩, -, rfl⟩ := hfields
  obtain ⟨e, he⟩ := Reading.read_of_required hnetwork
  refine ⟨(Reading.whole_of_name he).1, fun text htext => ?_⟩
  obtain rfl : mac = some text := htext
  rcases Reading.eq_or_read_of_defaulted hmac with hnone | ⟨e, he⟩
  · exact nomatch hnone
  · obtain ⟨e, he⟩ := Reading.read_of_optional he
    exact accepts_of_macReading he

end Interface

namespace Domain

variable {d : Domain}

theorem isRead_of_reading {data : Data} (h : reading data = .valid d) : d.IsRead := by
  obtain ⟨m, hm⟩ := Reading.eq_valid_of_record h
  have hfields := Reading.eq_valid_of_sealed hm
  simp only [Checked.seq_eq_valid_iff, Checked.map_eq_valid_iff] at hfields
  obtain ⟨_, restart, ⟨_, active, ⟨_, nvram, ⟨_, media, ⟨_, shares, ⟨_, interfaces, ⟨_, disks, ⟨_, machine,
    ⟨_, tpm, ⟨_, firmware, ⟨_, vcpus, ⟨_, memory, ⟨_, identifier, ⟨name, -, rfl⟩, -, rfl⟩, -, rfl⟩, -, rfl⟩, -, rfl⟩,
    -, rfl⟩, -, rfl⟩, hdisks, rfl⟩, hinterfaces, rfl⟩, -, rfl⟩, -, rfl⟩, -, rfl⟩, -, rfl⟩, -, rfl⟩ := hfields
  have hinterface : ∀ i ∈ interfaces,
      i.network ≠ "" ∧ ∀ mac, i.mac = some mac → HardwareAddress.accepts mac.toList = true := by
    rcases Reading.eq_or_read_of_defaulted hinterfaces with rfl | ⟨e, he⟩
    · simp
    · exact Reading.forall_of_list (fun _ _ => Interface.of_reading) he
  have hdisk : ∀ k ∈ disks, k.pool ≠ "" := by
    rcases Reading.eq_or_read_of_defaulted hdisks with rfl | ⟨e, he⟩
    · simp
    · exact Reading.forall_of_list (fun _ _ => Disk.pool_ne_of_reading) he
  exact ⟨fun i hi => (hinterface i hi).1, fun i hi => (hinterface i hi).2, hdisk⟩

end Domain

/-! ### All documents -/

/-- **What is rendered is read back as declared**: the name of every resource, and the interfaces and references of a
domain. Values come back as they are shown, and so as they are declared if they are on one line. -/
theorem reads_written (n : Network) (p : Pool) (v : Volume) (data : Data) (d : Domain) (text : String) :
    (n.written = .ok text → Names text n.name) ∧
    (p.written = .ok text → Names text p.name) ∧
    (v.written = .ok text → Names text v.name) ∧
    (Domain.reading data = .valid d → d.written = .ok text →
      Names text d.name ∧
        ∃ e, Element.read? text = some e ∧ d.ReadsAs shown e ∧ (d.IsOnOneLine → d.ReadsAs id e)) := by
  refine ⟨?_, ?_, ?_, ?_⟩
  · intro h
    exact (Declaration.network n).orderly.framed.names h rfl
  · intro h
    exact (Declaration.pool p).orderly.framed.names h rfl
  · intro h
    rw [Volume.written] at h
    split at h
    · exact v.framed.names h rfl
    · cases h
  · intro hread h
    have hframed := (Declaration.domain d).orderly.framed
    have hrender := Declaration.render_eq_of_written (s := .domain d) h
    have hshown := Domain.readsAs_shown (Domain.isRead_of_reading hread)
    exact ⟨hframed.names hrender rfl, _, hframed.read?_render hrender, hshown, hshown.declared⟩

namespace Domain

/-- A domain with a disk and an interface. -/
def attached : Domain where
  name := "vm"
  identifier := some ⟨1⟩
  memory := ⟨1, .GiB⟩
  disks := [{ pool := "images", volume := "vm" }]
  interfaces := [{ network := "lab", mac := some "52:54:00:00:00:01" }]

/-- The volume of the disk. -/
def attachedVolume : Volume where
  name := "vm"
  capacity := ⟨4, .GiB⟩
  format := "qcow2"

/-- A network, a pool, a volume in it, and a domain that uses them. -/
theorem reads_written_attached :
    (∃ text, Network.withRange.written = .ok text ∧ Names text "lab") ∧
    (∃ text, Pool.inDirectory.written = .ok text ∧ Names text "images") ∧
    (∃ text, attachedVolume.written = .ok text ∧ Names text "vm") ∧
    ∃ text, reading attached.dump = .valid attached ∧ attached.written = .ok text ∧ attached.IsOnOneLine ∧
      Names text "vm" ∧ ∃ e, Element.read? text = some e ∧ attached.ReadsAs id e := by
  have hall := reads_written Network.withRange Pool.inDirectory attachedVolume attached.dump attached
  have hnetwork : Network.withRange.written = .ok Network.withRange.document.print := Network.written_eq (by decide)
  have hpool : Pool.inDirectory.written = .ok Pool.inDirectory.document.print := Pool.written_eq (by decide)
  have hvolume : attachedVolume.written = .ok attachedVolume.document.print := by
    rw [Volume.written_eq (by decide), if_pos (Text.isWritable_of_lt (by decide))]
  have hread : reading attached.dump = .valid attached := by rfl
  have hwritten : attached.written = .ok attached.document.print := by
    rw [written_eq (by decide), if_pos (Text.isWritable_of_lt (by decide))]
  have hline : attached.IsOnOneLine := by
    constructor <;> simp [attached] <;> decide
  obtain ⟨hname, e, he, -, hdeclared⟩ := (hall _).2.2.2 hread hwritten
  exact ⟨⟨_, hnetwork, (hall _).1 hnetwork⟩, ⟨_, hpool, (hall _).2.1 hpool⟩, ⟨_, hvolume, (hall _).2.2.1 hvolume⟩,
    _, hread, hwritten, hline, hname, e, he, hdeclared hline⟩

/-- A domain on a network with a tab in its name. -/
def tabbed : Domain where
  name := "vm"
  identifier := some ⟨1⟩
  memory := ⟨1, .GiB⟩
  interfaces := [{ network := "a\tb", mac := some "52:54:00:00:00:01" }]

/-- **A tab is a blind spot**: the document of this domain refers to another network than the domain. -/
theorem reads_otherwise : ∃ text e, reading tabbed.dump = .valid tabbed ∧ tabbed.written = .ok text ∧
    Element.read? text = some e ∧ tabbed.interfaces.map (·.network) = ["a\tb"] ∧
      e.interfaceEntries.map (·.network) = [some "a b"] ∧ e.networkReferences = ["a b"] := by
  have hread : reading tabbed.dump = .valid tabbed := by rfl
  have hrender : tabbed.document.render = .ok tabbed.document.settle.print := by
    rw [Element.render, if_pos (by decide +kernel)]
  have hwritten : tabbed.written = .ok tabbed.document.settle.print := by
    rw [written, if_pos (Text.isWritable_of_lt (by decide)), hrender]
  have hshown := readsAs_shown (isRead_of_reading hread)
  have hspace : shown "a\tb" = "a b" := by decide
  refine ⟨_, _, hread, hwritten, (Declaration.domain tabbed).orderly.framed.read?_render hrender, rfl, ?_, ?_⟩
  · show (tabbed.document.asRead 0).interfaceEntries.map (·.network) = [some "a b"]
    rw [hshown.interfaces, ← hspace]
    rfl
  · show (tabbed.document.asRead 0).networkReferences = ["a b"]
    rw [hshown.networks, ← hspace]
    rfl

end Domain

end VirtualTopology
