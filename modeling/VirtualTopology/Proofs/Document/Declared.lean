import VirtualTopology.Host.Call
import VirtualTopology.Proofs.Document.Legible

/-!
# The documents of declared resources are read back

What a pass wants to know of the document of a declared resource comes back as it was declared: the name,
the networks and pools that a domain refers to, and the capacity and the format of a volume. A part of
an element that was read back is the same part of the element, read back.
-/

namespace VirtualTopology

open Document Element

/-! ### Reading back, part by part -/

namespace Element

/-- Whether a change of texts, at each indentation, keeps the tags and changes the children in the same way two spaces
further in. -/
structure KeepsShape (change : Nat → Element → Element) : Prop where
  tag_eq : ∀ indent e, (change indent e).tag = e.tag
  children_eq : ∀ indent e, (change indent e).children = e.children.map (change (indent + 2))

namespace KeepsShape

variable {change : Nat → Element → Element} (h : KeepsShape change) (indent : Nat) (e : Element)

include h

theorem first?_eq (tag : String) : (change indent e).first? tag = (e.first? tag).map (change (indent + 2)) := by
  rw [first?, first?, h.children_eq, List.find?_map]
  congr 2
  funext c
  simp [h.tag_eq]

theorem all_eq (tag : String) : (change indent e).all tag = (e.all tag).map (change (indent + 2)) := by
  rw [all, all, h.children_eq, List.filter_map]
  congr 2
  funext c
  simp [h.tag_eq]

/-- What is at the end of a path is there after the change, changed. -/
theorem descend_eq (path : List String) :
    (change indent e).descend path = (e.descend path).map (change (indent + 2 * path.length)) := by
  induction path generalizing e indent with
  | nil => rfl
  | cons tag path ih =>
    have hpath : indent + 2 * (tag :: path).length = indent + 2 + 2 * path.length := by
      rw [List.length_cons]
      omega
    rw [descend, descend, h.all_eq, List.flatMap_map, List.map_flatMap, hpath]
    congr 1
    funext c
    exact ih _ c

end KeepsShape

@[simp] theorem tag_readBack (indent : Nat) (e : Element) : (e.readBack indent).tag = e.tag := by
  obtain ⟨tag, attributes, lead, children⟩ := e
  simp [readBack]

theorem attributes_readBack (indent : Nat) (e : Element) :
    (e.readBack indent).attributes = flattenAll e.attributes := by
  obtain ⟨tag, attributes, lead, children⟩ := e
  simp [readBack]

theorem children_readBack (indent : Nat) (e : Element) :
    (e.readBack indent).children = e.children.map (readBack (indent + 2)) := by
  obtain ⟨tag, attributes, lead, children⟩ := e
  simp [readBack, readBackAll_eq_map]

theorem keepsShape_readBack : KeepsShape readBack := ⟨tag_readBack, children_readBack⟩

/-- An element without children keeps its character data. -/
theorem lead_readBack (indent : Nat) {e : Element} (h : e.children = []) :
    (e.readBack indent).lead = e.lead := by
  obtain ⟨tag, attributes, lead, children⟩ := e
  simp_all [readBack]

theorem attribute?_readBack (indent : Nat) (e : Element) (name : String) :
    (e.readBack indent).attribute? name = (e.attribute? name).map flatten := by
  rw [attribute?, attribute?, attributes_readBack]
  induction e.attributes with
  | nil => rfl
  | cons a as ih =>
    rw [flattenAll, List.map_cons, List.lookup_cons, List.lookup_cons]
    by_cases ha : name == a.1
    · simp [ha]
    · simpa [ha, flattenAll] using ih

/-- An attribute that is given in an element that was read back was there before. -/
theorem attribute?_of_given?_readBack {indent : Nat} {e : Element} {name value : String}
    (h : (e.readBack indent).given? name = some value) :
    (e.attribute? name).map flatten = some value := by
  rw [← attribute?_readBack indent]
  exact (Option.filter_eq_some_iff.1 h).1

theorem mem_descend_cons {e x : Element} {tag : String} {path : List String} :
    x ∈ e.descend (tag :: path) ↔ ∃ c ∈ e.children, c.tag = tag ∧ x ∈ c.descend path := by
  simp [descend, all, and_assoc]

/-- A path is gone to its last tag, and then to the children with that tag. -/
theorem descend_concat (e : Element) (path : List String) (tag : String) :
    e.descend (path ++ [tag]) = (e.descend path).flatMap (·.all tag) := by
  induction path generalizing e with
  | nil => simp [descend]
  | cons t path ih => simp only [List.cons_append, descend, ih, List.flatMap_assoc]

theorem first?_readBack (indent : Nat) (e : Element) (tag : String) :
    (e.readBack indent).first? tag = (e.first? tag).map (readBack (indent + 2)) :=
  keepsShape_readBack.first?_eq indent e tag

theorem all_readBack (indent : Nat) (e : Element) (tag : String) :
    (e.readBack indent).all tag = (e.all tag).map (readBack (indent + 2)) :=
  keepsShape_readBack.all_eq indent e tag

/-- What is at the end of a path in an element that was read back was at the end of it before. -/
theorem descend_readBack (indent : Nat) (e : Element) (path : List String) :
    (e.readBack indent).descend path =
      (e.descend path).map (readBack (indent + 2 * path.length)) :=
  keepsShape_readBack.descend_eq indent e path

theorem mem_descend_readBack {indent : Nat} {path : List String} {e x : Element}
    (h : x ∈ (e.readBack indent).descend path) :
    ∃ y ∈ e.descend path, ∃ n, x = y.readBack n := by
  rw [descend_readBack, List.mem_map] at h
  obtain ⟨y, hy, rfl⟩ := h
  exact ⟨y, hy, _, rfl⟩

/-- The name in the text of a document. -/
theorem Legible.nameInDocument_print {e : Element} (he : e.Legible) {name : String}
    (h : e.first? "name" = some (leaf "name" name)) : nameInDocument e.print = name := by
  have hlead : ((leaf "name" name).readBack 2).lead = name := lead_readBack 2 rfl
  simp [nameInDocument, he.read?_print, resourceName?, first?_readBack, h, hlead]

end Element

/-! ### Names and references of declared resources -/

theorem Network.written_eq {n : Network} (h : Text.ArePlain n.texts) :
    n.written = .ok n.document.print := (legible h).render_eq

theorem Network.nameInDocument_written {n : Network} (h : Text.ArePlain n.texts) :
    nameInDocument n.document.print = n.name := (legible h).nameInDocument_print rfl

theorem Pool.written_eq {p : Pool} (h : Text.ArePlain p.texts) :
    p.written = .ok p.document.print := (legible h).render_eq

theorem Pool.nameInDocument_written {p : Pool} (h : Text.ArePlain p.texts) :
    nameInDocument p.document.print = p.name := (legible h).nameInDocument_print rfl

theorem Volume.written_eq {v : Volume} (h : Text.ArePlain v.texts) :
    v.written =
      if Text.isWritable v.capacity.toBytes then .ok v.document.print else .error .number := by
  rw [written, (legible h).render_eq]

theorem Volume.nameInDocument_written {v : Volume} (h : Text.ArePlain v.texts) :
    nameInDocument v.document.print = v.name := (legible h).nameInDocument_print rfl

theorem Domain.written_eq {d : Domain} (h : Text.ArePlain d.texts) :
    d.written = if Text.isWritable d.memory.toKiB then .ok d.document.print else .error .number := by
  rw [written, (legible h).render_eq]

theorem Domain.nameInDocument_written {d : Domain} (h : Text.ArePlain d.texts) :
    nameInDocument d.document.print = d.name := (legible h).nameInDocument_print rfl

/-! ### References -/

namespace Domain

variable {d : Domain} (h : Text.ArePlain d.texts)

@[simp] theorem tag_diskElement (k : Disk) (device : String) :
    (diskElement k device).tag = "disk" := rfl

@[simp] theorem tag_mediumElement (medium device : String) :
    (mediumElement medium device).tag = "disk" := rfl

@[simp] theorem tag_interfaceElement (d : Domain) (place : Nat) (i : Interface) :
    (d.interfaceElement place i).tag = "interface" := rfl

@[simp] theorem tag_shareElement (s : Share) : (shareElement s).tag = "filesystem" := rfl

@[simp] theorem tag_startElement (d : Domain) : d.startElement.tag = "os" := rfl

@[simp] theorem tag_featureElement (d : Domain) : d.featureElement.tag = "features" := rfl

/-- The elements inside the devices of a domain. -/
theorem mem_descend_document {tag : String} {path : List String} {x : Element}
    (hx : x ∈ d.document.descend ("devices" :: tag :: path)) :
    ∃ c ∈ d.deviceElements, c.tag = tag ∧ x ∈ c.descend path := by
  obtain ⟨c, hc, htag, hx⟩ := mem_descend_cons.1 hx
  obtain ⟨b, hb, htag', hx⟩ := mem_descend_cons.1 hx
  have hdevices : c = branch "devices" d.deviceElements := by
    simp only [document, branch, leaf, Element.empty, List.mem_append, List.mem_cons,
      List.not_mem_nil, or_false] at hc
    rcases hc with (hc | hc) | hc
    · rcases hc with rfl | rfl | rfl | rfl <;> simp at htag
    · split at hc
      · exact absurd hc (by simp)
      · obtain rfl : c = sharedMemory := by simpa using hc
        exact absurd htag (by decide)
    · rcases hc with rfl | rfl | rfl | rfl | rfl
      · simp at htag
      · simp at htag
      · simp at htag
      · exact absurd htag (by decide)
      · rfl
  rw [hdevices] at hb
  exact ⟨b, hb, htag', hx⟩

theorem mem_driveElements {e : Element} (he : e ∈ d.driveElements) :
    (∃ k ∈ d.disks, ∃ device, e = diskElement k device) ∨
      ∃ medium device, e = mediumElement medium device := by
  obtain ⟨i, hi, rfl⟩ := List.mem_iff_getElem.1 he
  simp only [driveElements, List.getElem_zipWith]
  have hmake := List.getElem_mem (l := d.disks.map diskElement ++ d.installMedia.map mediumElement)
    (n := i) (by simp [driveElements] at hi; simp; omega)
  rcases List.mem_append.1 hmake with hm | hm
  · obtain ⟨k, hk, heq⟩ := List.mem_map.1 hm
    exact .inl ⟨k, hk, _, by rw [← heq]⟩
  · obtain ⟨medium, -, heq⟩ := List.mem_map.1 hm
    exact .inr ⟨medium, _, by rw [← heq]⟩

/-- The device elements by their tags. -/
theorem mem_deviceElements {e : Element} (he : e ∈ d.deviceElements) :
    (∃ k ∈ d.disks, ∃ device, e = diskElement k device) ∨
    (∃ medium device, e = mediumElement medium device) ∨
    (∃ i ∈ d.interfaces, ∃ place, e = d.interfaceElement place i) ∨
    (e.tag ≠ "disk" ∧ e.tag ≠ "interface") := by
  simp only [deviceElements, List.mem_append] at he
  rcases he with (((he | he) | he) | he) | he
  · rcases mem_driveElements he with hk | hm
    · exact .inl hk
    · exact .inr (.inl hm)
  · obtain ⟨i, hi, rfl⟩ := List.mem_mapIdx.1 he
    exact .inr (.inr (.inl ⟨_, List.getElem_mem hi, i, rfl⟩))
  · obtain ⟨s, -, rfl⟩ := List.mem_map.1 he
    exact .inr (.inr (.inr (by simp)))
  · refine .inr (.inr (.inr ?_))
    split at he
    · obtain rfl := List.mem_singleton.1 he
      exact ⟨by decide, by decide⟩
    · exact absurd he (by simp)
  · refine .inr (.inr (.inr ?_))
    simp only [List.mem_cons, List.not_mem_nil, or_false] at he
    rcases he with rfl | rfl | rfl | rfl <;> exact ⟨by decide, by decide⟩

include h

/-- A domain refers to no network but those of its interfaces. -/
theorem mem_networkReferences {name : String}
    (hname : name ∈ (d.document.readBack 0).networkReferences) :
    ∃ i ∈ d.interfaces, i.network = name := by
  obtain ⟨x, hx, hgiven⟩ := List.mem_filterMap.1 hname
  obtain ⟨y, hy, n, rfl⟩ := mem_descend_readBack hx
  obtain ⟨c, hc, htag, hy⟩ := mem_descend_document hy
  rcases mem_deviceElements hc with ⟨k, -, device, rfl⟩ | ⟨m, device, rfl⟩ | ⟨i, hi, place, rfl⟩ |
    ⟨-, hne⟩
  · simp at htag
  · simp at htag
  · refine ⟨i, hi, ?_⟩
    have hflat := (arePlain_interface h hi i.network (by simp [Interface.texts])).flatten_eq
    simp only [interfaceElement, branch, mem_descend_cons] at hy
    obtain ⟨b, hb, hsource, hy⟩ := hy
    simp only [List.mem_cons, List.not_mem_nil, or_false] at hb
    rcases hb with rfl | rfl | rfl
    · simp [Element.empty] at hsource
    · obtain rfl : y = Element.empty "source" [("network", i.network)] := by simpa [descend] using hy
      simpa [attribute?, Element.empty, hflat] using attribute?_of_given?_readBack hgiven
    · simp [Element.empty] at hsource
  · exact absurd htag hne

/-- A domain refers to no pool but those of its disks. -/
theorem mem_poolReferences {name : String}
    (hname : name ∈ (d.document.readBack 0).poolReferences) : ∃ k ∈ d.disks, k.pool = name := by
  obtain ⟨x, hx, hgiven⟩ := List.mem_filterMap.1 hname
  obtain ⟨y, hy, n, rfl⟩ := mem_descend_readBack hx
  obtain ⟨c, hc, htag, hy⟩ := mem_descend_document hy
  -- of the devices that are disks only declared ones have a source with a pool; media have one with a file
  rcases mem_deviceElements hc with ⟨k, hk, device, rfl⟩ | ⟨m, device, rfl⟩ | ⟨i, -, place, rfl⟩ |
    ⟨hne, -⟩
  · refine ⟨k, hk, ?_⟩
    have hflat := (arePlain_disk h hk k.pool (by simp [Disk.texts])).flatten_eq
    simp only [diskElement, branch, mem_descend_cons] at hy
    obtain ⟨b, hb, hsource, hy⟩ := hy
    simp only [List.mem_cons, List.not_mem_nil, or_false] at hb
    rcases hb with rfl | rfl | rfl
    · simp [Element.empty] at hsource
    · obtain rfl : y = Element.empty "source" [("pool", k.pool), ("volume", k.volume)] := by
        simpa [descend] using hy
      simpa [attribute?, Element.empty, hflat] using attribute?_of_given?_readBack hgiven
    · simp [Element.empty] at hsource
  · simp only [mediumElement, branch, mem_descend_cons] at hy
    obtain ⟨b, hb, hsource, hy⟩ := hy
    simp only [List.mem_cons, List.not_mem_nil, or_false] at hb
    rcases hb with rfl | rfl | rfl | rfl
    · simp [Element.empty] at hsource
    · obtain rfl : y = Element.empty "source" [("file", m)] := by simpa [descend] using hy
      simpa [attribute?, Element.empty] using attribute?_of_given?_readBack hgiven
    · simp [Element.empty] at hsource
    · simp [Element.empty] at hsource
  · simp at htag
  · exact absurd htag hne

end Domain

/-! ### Capacity and format of a declared volume -/

theorem Volume.volumeCapacity?_document {v : Volume}
    (h : Text.isWritable v.capacity.toBytes = true) :
    (v.document.readBack 0).volumeCapacity? = some v.capacity.toBytes := by
  have hfirst : v.document.first? "capacity"
      = some (leaf "capacity" (toString v.capacity.toBytes) [("unit", "bytes")]) := rfl
  have hattribute : (leaf "capacity" (toString v.capacity.toBytes) [("unit", "bytes")]).attribute?
      "unit" = some "bytes" := rfl
  have hflat : flatten "bytes" = "bytes" := by decide
  have hunit : SizeUnit.ofWord? "bytes" = some .bytes := by decide
  have hlead : ((leaf "capacity" (toString v.capacity.toBytes) [("unit", "bytes")]).readBack 2).lead
      = toString v.capacity.toBytes := lead_readBack 2 rfl
  simp only [volumeCapacity?, first?_readBack, hfirst, Option.map_some, Option.bind_eq_bind,
    Option.bind_some, attribute?_readBack, hattribute, hflat, Option.getD_some, hunit, hlead,
    Text.integer?_toString h]
  simp [Quantity.toBytes, SizeUnit.size]

theorem Volume.volumeFormat?_document {v : Volume} (h : Text.ArePlain v.texts) :
    (v.document.readBack 0).volumeFormat? = some v.format := by
  have hflat := (h v.format (by simp [texts])).flatten_eq
  have hdescend : v.document.descend ["target", "format"]
      = [Element.empty "format" [("type", v.format)]] := rfl
  have hattribute : (Element.empty "format" [("type", v.format)]).attribute? "type"
      = some v.format := rfl
  rw [volumeFormat?, descend_readBack, hdescend, List.map_singleton, List.head?_cons, Option.bind_some,
    attribute?_readBack, hattribute, Option.map_some, hflat]

end VirtualTopology
