import VirtualTopology.Proofs.Document.Meeting

/-!
# What a match of two domains says about them

If the document of one domain meets that of another, the two agree on what they declare
(`Domain.agreesWith_of_documentsMatch`): every part of a domain stands in its document, as something that has to be
met, and what one document leaves out the other may not add, where it belongs to the declaration.

The exceptions are those of matching itself, a machine that is stored under a longer name and a variable store that
a host has made up, and one more: the program that serves a share does not belong to the declaration, so a share that
names none meets a share that names one (`Domain.binary_unseen`).
-/

namespace VirtualTopology

open Document Element

/-! ### Texts that stand for themselves -/

/-- Whether a text comes back as it is, from the value of an attribute as well as from character data. -/
structure Text.Stands (s : String) : Prop where
  flatten_eq : flatten s = s
  trim_eq : Text.trim s = s

theorem Text.IsPlain.stands {s : String} (h : IsPlain s) : Stands s := ⟨h.flatten_eq, h.trimmed⟩

theorem Text.stands_of_isVisible {s : String} (h : ∀ c ∈ s.toList, isVisible c = true) : Stands s := by
  have hrange : ∀ c ∈ s.toList, 0x21 ≤ c.toNat ∧ c.toNat ≤ 0x7e := fun c hc => by
    simpa [isVisible] using h c hc
  constructor
  · refine flatten_eq_self fun c hc hwhite => ?_
    have hc := hrange c hc
    simp only [isWhite, Bool.or_eq_true, beq_iff_eq] at hwhite
    rcases hwhite with ((rfl | rfl) | rfl) | rfl <;> exact absurd hc (by decide)
  · have hblank : ∀ c ∈ s.toList, isBlank c = false := fun c hc => by
      have hc := hrange c hc
      simp only [isBlank, isSpace, Bool.or_eq_false_iff, Bool.and_eq_false_iff, decide_eq_false_iff_not,
        beq_eq_false_iff_ne]
      omega
    rw [trim, trimBy_eq_self hblank, String.ofList_toList]

theorem Text.stands_identifier (i : Identifier) : Stands i.text := stands_of_isVisible (isVisible_identifier i)

namespace Element.Meets

variable {d s : Element} (h : d.Meets s)

include h

/-- **An attribute that stands for itself is the same**, unless it is that of a machine. -/
theorem attribute_eq (name : String) {v w : String} (hd : d.attribute? name = some v) (hs : s.attribute? name = some w)
    (hv : Text.Stands v) (hw : Text.Stands w) (htag : d.tag ≠ "type") : v = w := by
  obtain ⟨x, hx, hsame | ⟨htype, -⟩⟩ := h.exists_attribute hd
  · obtain rfl : w = x := Option.some.inj (hs.symm.trans hx)
    rwa [hv.flatten_eq, hw.flatten_eq] at hsame
  · exact absurd htype htag

/-- So is that of the only child with a tag. -/
theorem child_attribute_eq (t name : String) (ht : isWord t.toList = true) (htag : t ≠ "type") {c e : Element}
    {v w : String} (hc : d.all t = [c]) (he : s.all t = [e]) (hd : c.attribute? name = some v)
    (hs : e.attribute? name = some w)
    (hv : Text.Stands v) (hw : Text.Stands w) : v = w := by
  have hctag : c.tag = t := by
    have hmem : c ∈ d.all t := by simp [hc]
    simpa using (List.mem_filter.1 hmem).2
  exact (h.child ht hc he).attribute_eq name hd hs hv hw (hctag ▸ htag)

/-- **A text that stands for itself is the same.** -/
theorem leaf_eq {t v w : String} {as bs : List (String × String)} (hd : d = leaf t v as) (hs : s = leaf t w bs)
    (hv : Text.Stands v) (hw : Text.Stands w)
    (hne : v ≠ "") : v = w := by
  subst hd hs
  have hlead := h.lead_eq rfl rfl (by rwa [leaf, hv.trim_eq])
  rwa [leaf, leaf, hv.trim_eq, hw.trim_eq] at hlead

/-- So is that of the only child with a tag. -/
theorem child_leaf_eq {t v w : String} {as bs : List (String × String)} (ht : isWord t.toList = true)
    (hd : d.all t = [leaf t v as]) (hs : s.all t = [leaf t w bs]) (hv : Text.Stands v) (hw : Text.Stands w)
    (hne : v ≠ "") : v = w :=
  (h.child ht hd hs).leaf_eq rfl rfl hv hw hne

end Element.Meets

namespace Domain

/-! ### The devices of a domain -/

theorem filter_tag {es : List Element} {t : String} (h : ∀ e ∈ es, e.tag = t) (u : String) :
    es.filter (·.tag == u) = if t = u then es else [] := by
  split
  · next htu => exact List.filter_eq_self.2 fun e he => by simp [h e he, htu]
  · next htu => exact List.filter_eq_nil_iff.2 fun e he => by simp [h e he, htu]

theorem tag_of_mem_driveElements {d : Domain} {e : Element} (he : e ∈ d.driveElements) : e.tag = "disk" := by
  rcases mem_driveElements he with ⟨k, -, device, rfl⟩ | ⟨medium, device, rfl⟩ <;> rfl

/-- **The devices of a domain by their tags.** -/
theorem all_devices (d : Domain) (t : String) : (branch "devices" d.deviceElements).all t =
    (if "disk" = t then d.driveElements else []) ++
      (if "interface" = t then d.interfaces.mapIdx d.interfaceElement else []) ++
      (if "filesystem" = t then d.shares.map shareElement else []) ++
      (if d.tpm ∧ "tpm" = t then
        [branch "tpm" [Element.empty "backend" [("type", "emulator"), ("version", "2.0")]] [("model", "tpm-tis")]]
       else []) ++
      [Element.empty "input" [("type", "tablet"), ("bus", "usb")],
       Element.empty "graphics" [("type", "spice"), ("autoport", "yes")],
       branch "video" [Element.empty "model" [("type", "qxl")]],
       Element.empty "memballoon" [("model", "virtio")]].filter (·.tag == t) := by
  have hinterfaces : ∀ e ∈ d.interfaces.mapIdx d.interfaceElement, e.tag = "interface" := fun e he => by
    obtain ⟨i, hi, rfl⟩ := List.mem_mapIdx.1 he
    rfl
  have hshares : ∀ e ∈ d.shares.map shareElement, e.tag = "filesystem" := fun e he => by
    obtain ⟨s, -, rfl⟩ := List.mem_map.1 he
    rfl
  rw [all, branch, deviceElements, List.filter_append, List.filter_append, List.filter_append, List.filter_append,
    filter_tag (fun _ => tag_of_mem_driveElements), filter_tag hinterfaces, filter_tag hshares]
  cases d.tpm <;> simp [List.filter_cons, branch]

/-- What a drive holds: a disk or an install medium. -/
def drives (d : Domain) : List (Disk ⊕ String) := d.disks.map .inl ++ d.installMedia.map .inr

/-- The element of a drive. -/
def driveElement : Disk ⊕ String → String → Element
  | .inl k => diskElement k
  | .inr medium => mediumElement medium

theorem driveElements_eq (d : Domain) :
    d.driveElements = List.zipWith driveElement d.drives (deviceNames d.buses) := by
  have hmakers : d.drives.map driveElement = d.disks.map diskElement ++ d.installMedia.map mediumElement := by
    rw [drives, List.map_append, List.map_map, List.map_map]
    rfl
  rw [driveElements, ← hmakers, List.zipWith_map_left]

theorem length_deviceNamesFrom (before buses : List String) :
    (deviceNamesFrom before buses).length = buses.length := by
  induction buses generalizing before with
  | nil => rfl
  | cons bus buses ih => simp [deviceNamesFrom, ih]

theorem length_drives (d : Domain) : d.drives.length = (deviceNames d.buses).length := by
  rw [deviceNames, length_deviceNamesFrom]
  simp [drives, buses]

/-- Elements that are made with devices meet, if what they hold does with some devices. -/
theorem forall₂_of_zipWith {α : Type} {f : α → String → Element} {xs ys : List α} {us vs : List String}
    (hxs : xs.length = us.length) (hys : ys.length = vs.length)
    (h : List.Forall₂ Meets (List.zipWith f xs us) (List.zipWith f ys vs)) :
    List.Forall₂ (fun x y => ∃ u v, (f x u).Meets (f y v)) xs ys := by
  induction xs generalizing us ys vs with
  | nil =>
    have hlength := h.length_eq
    rw [List.zipWith_nil_left, List.length_nil, List.length_zipWith, ← hys, Nat.min_self] at hlength
    rw [List.length_eq_zero_iff.1 hlength.symm]
    exact .nil
  | cons x xs ih =>
    cases us with
    | nil => exact absurd hxs (by simp)
    | cons u us =>
      cases ys with
      | nil => exact nomatch h
      | cons y ys =>
        cases vs with
        | nil => exact absurd hys (by simp)
        | cons v vs =>
          rw [List.zipWith_cons_cons, List.zipWith_cons_cons, List.forall₂_cons] at h
          exact .cons ⟨u, v, h.1⟩ (ih (by simpa using hxs) (by simpa using hys) h.2)

theorem eq_of_diskElement_meets {k l : Disk} {u v : String} (h : (diskElement k u).Meets (diskElement l v))
    (hk : Text.ArePlain k.texts) (hl : Text.ArePlain l.texts) : k = l := by
  have hks : ∀ s ∈ k.texts, Text.Stands s := fun s hs => (hk s hs).stands
  have hls : ∀ s ∈ l.texts, Text.Stands s := fun s hs => (hl s hs).stands
  simp only [Disk.texts, List.forall_mem_cons] at hks hls
  obtain ⟨hpool, hvolume, hbus, hformat, -⟩ := hks
  obtain ⟨hpool', hvolume', hbus', hformat', -⟩ := hls
  have hpools := h.child_attribute_eq "source" "pool" (by decide) (by decide) rfl rfl rfl rfl hpool hpool'
  have hvolumes := h.child_attribute_eq "source" "volume" (by decide) (by decide) rfl rfl rfl rfl hvolume hvolume'
  have hbuses := h.child_attribute_eq "target" "bus" (by decide) (by decide) rfl rfl rfl rfl hbus hbus'
  have hformats := h.child_attribute_eq "driver" "type" (by decide) (by decide) rfl rfl rfl rfl hformat hformat'
  cases k
  cases l
  simp_all

theorem eq_of_mediumElement_meets {m n u v : String} (h : (mediumElement m u).Meets (mediumElement n v))
    (hm : Text.IsPlain m) (hn : Text.IsPlain n) : m = n :=
  h.child_attribute_eq "source" "file" (by decide) (by decide) rfl rfl rfl rfl hm.stands hn.stands

/-- **Drives that meet hold the same.** A disk and an install medium are of different types. -/
theorem eq_of_driveElement_meets {x y : Disk ⊕ String} {u v : String}
    (h : (driveElement x u).Meets (driveElement y v)) (hx : Text.ArePlain (x.elim Disk.texts (fun m => [m])))
    (hy : Text.ArePlain (y.elim Disk.texts (fun m => [m]))) : x = y := by
  have hvolume : Text.Stands "volume" := Text.stands_of_isVisible (by decide)
  have hfile : Text.Stands "file" := Text.stands_of_isVisible (by decide)
  cases x with
  | inl k =>
    cases y with
    | inl l => exact congrArg Sum.inl (eq_of_diskElement_meets h hx hy)
    | inr n => exact absurd (h.attribute_eq "type" rfl rfl hvolume hfile (show "disk" ≠ "type" by decide)) (by decide)
  | inr m =>
    cases y with
    | inl l => exact absurd (h.attribute_eq "type" rfl rfl hfile hvolume (show "disk" ≠ "type" by decide)) (by decide)
    | inr n => exact congrArg Sum.inr (eq_of_mediumElement_meets h (hx m (by simp)) (hy n (by simp)))

/-- What is seen of an interface: its network, its model and its hardware address. -/
def seenInterface (d : Domain) (place : Nat) (i : Interface) : String × String × String :=
  (i.network, i.model, d.hardwareAddress place i)

theorem stands_hardwareAddress {d : Domain} {i : Interface} (h : Text.ArePlain i.texts) (place : Nat) :
    Text.Stands (d.hardwareAddress place i) := by
  have hderived := Text.stands_of_isVisible (isVisible_derive d.resolvedIdentifier.text place)
  unfold hardwareAddress
  split
  · next mac hmac =>
    split
    · exact hderived
    · exact (h mac (by simp [Interface.texts, hmac])).stands
  · exact hderived

theorem seenInterface_eq_of_meets {a b : Domain} {i j : Interface} {place : Nat}
    (h : (a.interfaceElement place i).Meets (b.interfaceElement place j)) (hi : Text.ArePlain i.texts)
    (hj : Text.ArePlain j.texts) : a.seenInterface place i = b.seenInterface place j := by
  have hnetwork := h.child_attribute_eq "source" "network" (by decide) (by decide) rfl rfl rfl rfl
    (hi i.network (by simp [Interface.texts])).stands (hj j.network (by simp [Interface.texts])).stands
  have hmodel := h.child_attribute_eq "model" "type" (by decide) (by decide) rfl rfl rfl rfl
    (hi i.model (by simp [Interface.texts])).stands (hj j.model (by simp [Interface.texts])).stands
  have hmac := h.child_attribute_eq "mac" "address" (by decide) (by decide) rfl rfl rfl rfl
    (stands_hardwareAddress hi place) (stands_hardwareAddress hj place)
  rw [seenInterface, seenInterface, hnetwork, hmodel, hmac]

end Domain

/-! ### Shares -/

/-- Whether a stored share shows what is declared. The program that serves it is seen only if one is declared. -/
structure Share.Shows (s t : Share) : Prop where
  hostPath : s.hostPath = t.hostPath
  mountTag : s.mountTag = t.mountTag
  binaryPath : Domain.given s.binaryPath = Domain.given t.binaryPath ∨ Domain.given s.binaryPath = none

namespace Domain

theorem all_shareElement_source (s : Share) :
    (shareElement s).all "source" = [Element.empty "source" [("dir", s.hostPath)]] := by
  rw [all, shareElement, branch]
  cases given s.binaryPath <;> rfl

theorem all_shareElement_target (s : Share) :
    (shareElement s).all "target" = [Element.empty "target" [("dir", s.mountTag)]] := by
  rw [all, shareElement, branch]
  cases given s.binaryPath <;> rfl

theorem all_shareElement_binary (s : Share) :
    (shareElement s).all "binary" =
      (given s.binaryPath).toList.map fun path => Element.empty "binary" [("path", path)] := by
  rw [all, shareElement, branch]
  cases given s.binaryPath <;> rfl

theorem given_eq_some {o : Option String} {path : String} (h : given o = some path) : o = some path ∧ path ≠ "" := by
  obtain ⟨ho, hne⟩ := Option.filter_eq_some_iff.1 h
  exact ⟨ho, by simpa using hne⟩

/-- **Shares that meet**: a program that is declared is there, and the same. -/
theorem shows_of_meets {s t : Share} (h : (shareElement s).Meets (shareElement t)) (hs : Text.ArePlain s.texts)
    (ht : Text.ArePlain t.texts) : s.Shows t where
  hostPath := h.child_attribute_eq "source" "dir" (by decide) (by decide) (all_shareElement_source s)
    (all_shareElement_source t) rfl rfl (hs s.hostPath (by simp [Share.texts])).stands
    (ht t.hostPath (by simp [Share.texts])).stands
  mountTag := h.child_attribute_eq "target" "dir" (by decide) (by decide) (all_shareElement_target s)
    (all_shareElement_target t) rfl rfl (hs s.mountTag (by simp [Share.texts])).stands
    (ht t.mountTag (by simp [Share.texts])).stands
  binaryPath := by
    cases hdeclared : given s.binaryPath with
    | none => exact .inr rfl
    | some path =>
      have hall := all_shareElement_binary s
      rw [hdeclared, Option.toList_some, List.map_singleton] at hall
      have hmem : Element.empty "binary" [("path", path)] ∈ (shareElement s).all "binary" := by simp [hall]
      -- the element of a declared program needs a partner on the other side
      obtain ⟨e, he, -⟩ := h.exists_child (List.mem_of_mem_filter hmem) (show isWord "binary".toList = true by decide)
      cases hstored : given t.binaryPath with
      | none =>
        rw [show (Element.empty "binary" [("path", path)]).tag = "binary" from rfl, all_shareElement_binary,
          hstored] at he
        exact absurd he (by simp)
      | some stored =>
        have hthere := all_shareElement_binary t
        rw [hstored, Option.toList_some, List.map_singleton] at hthere
        have hpath := (hs path (by simp [Share.texts, (given_eq_some hdeclared).1])).stands
        have hpath' := (ht stored (by simp [Share.texts, (given_eq_some hstored).1])).stands
        rw [h.child_attribute_eq "binary" "path" (by decide) (by decide) hall hthere rfl rfl hpath hpath']
        exact .inl rfl

/-! ### How the guest is started -/

theorem attribute?_startElement (d : Domain) :
    d.startElement.attribute? "firmware" = if d.firmware = .uefi then some "efi" else none := by
  rw [startElement, branch]
  cases d.firmware <;> rfl

theorem all_startElement_type (d : Domain) :
    d.startElement.all "type" = [leaf "type" "hvm" [("arch", "x86_64"), ("machine", d.machine)]] := by
  rw [all, startElement, branch]
  cases d.firmware <;> cases given d.nvram <;> cases d.installMedia.isEmpty <;> rfl

theorem all_startElement_nvram (d : Domain) :
    d.startElement.all "nvram" = (given d.nvram).toList.map (leaf "nvram" ·) := by
  rw [all, startElement, branch]
  cases d.firmware <;> cases given d.nvram <;> cases d.installMedia.isEmpty <;> rfl

/-- The firmware belongs to the declaration, also where none is given. -/
theorem firmware_eq_of_meets {a b : Domain} (h : a.startElement.Meets b.startElement) : a.firmware = b.firmware := by
  cases ha : a.firmware with
  | legacy =>
    have hnone := h.attribute?_eq_none (show "firmware" ∈ (Ownership.of "os").attributes by decide)
      (by rw [attribute?_startElement, ha]; rfl)
    rw [attribute?_startElement] at hnone
    cases hb : b.firmware with
    | legacy => rfl
    | uefi => exact absurd hnone (by simp [hb])
  | uefi =>
    have hdeclared : a.startElement.attribute? "firmware" = some "efi" := by
      rw [attribute?_startElement, ha]
      rfl
    obtain ⟨w, hw, -⟩ := h.exists_attribute hdeclared
    rw [attribute?_startElement] at hw
    cases hb : b.firmware with
    | legacy => exact absurd hw (by simp [hb])
    | uefi => rfl

/-- Whether a stored machine is the declared one, or what a host stores for it. -/
def IsMachineFor (declared stored : String) : Prop :=
  declared = stored ∨ (∃ x, stored = "pc-" ++ declared ++ "-" ++ x) ∨ declared = "pc" ∧ ∃ x, stored = "pc-i440fx-" ++ x

theorem exists_eq_append_of_isPrefixOf {p s : String} (h : p.toList.isPrefixOf s.toList = true) : ∃ x, s = p ++ x := by
  obtain ⟨cs, hcs⟩ := List.isPrefixOf_iff_prefix.1 h
  exact ⟨String.ofList cs, String.toList_injective (by rw [String.toList_append, String.toList_ofList, hcs])⟩

theorem machine_of_meets {a b : Domain} (h : a.startElement.Meets b.startElement) (ha : Text.IsPlain a.machine)
    (hb : Text.IsPlain b.machine) : IsMachineFor a.machine b.machine := by
  have htype := h.child (show isWord "type".toList = true by decide) (all_startElement_type a) (all_startElement_type b)
  obtain ⟨w, hw, hsame⟩ := htype.exists_attribute
    (show (leaf "type" "hvm" [("arch", "x86_64"), ("machine", a.machine)]).attribute? "machine" =
      some a.machine from rfl)
  obtain rfl : b.machine = w := Option.some.inj hw
  rw [ha.flatten_eq, hb.flatten_eq] at hsame
  refine hsame.imp_right fun ⟨_, _, hmachine⟩ => ?_
  rw [isMachineOf, Bool.or_eq_true, Bool.and_eq_true, beq_iff_eq] at hmachine
  exact hmachine.imp exists_eq_append_of_isPrefixOf (And.imp_right exists_eq_append_of_isPrefixOf)

/-- Whether a stored variable store is the declared one, or one that a host has made up for firmware that it selects
itself. -/
def IsStoreFor (a b : Domain) : Prop :=
  given a.nvram = given b.nvram ∨
    a.firmware = .uefi ∧ given a.nvram = none ∧ ∃ x, given b.nvram = some (x ++ "_VARS.fd")

theorem nvram_of_meets {a b : Domain} (h : a.startElement.Meets b.startElement)
    (ha : ∀ path, a.nvram = some path → Text.IsPlain path) (hb : ∀ path, b.nvram = some path → Text.IsPlain path) :
    IsStoreFor a b := by
  have hplain : ∀ path, given a.nvram = some path → Text.Stands path := fun path hpath =>
    (ha path (given_eq_some hpath).1).stands
  have hplain' : ∀ path, given b.nvram = some path → Text.Stands path := fun path hpath =>
    (hb path (given_eq_some hpath).1).stands
  -- a store is met by one with the same path, or it was made up on the other side
  rcases h.owned (show isWord "nvram".toList = true by decide)
    (show "nvram" ∈ (Ownership.of "os").children by decide) with hmet | ⟨hnone, hmade⟩
  · rw [all_startElement_nvram, all_startElement_nvram] at hmet
    refine .inl ?_
    cases hdeclared : given a.nvram with
    | none =>
      cases hstored : given b.nvram with
      | none => rfl
      | some stored => rw [hdeclared, hstored] at hmet; exact nomatch hmet
    | some path =>
      cases hstored : given b.nvram with
      | none => rw [hdeclared, hstored] at hmet; exact nomatch hmet
      | some stored =>
        rw [hdeclared, hstored] at hmet
        have hleaf := (List.forall₂_cons.1 hmet).1
        rw [hleaf.leaf_eq rfl rfl (hplain path hdeclared) (hplain' stored hstored) (given_eq_some hdeclared).2]
  · rw [all_startElement_nvram] at hnone
    obtain ⟨-, hfirmware, e, hthere, -, hsuffix⟩ := hmade
    rw [all_startElement_nvram] at hthere
    refine .inr ⟨?_, by simpa using hnone, ?_⟩
    · rw [attribute?_startElement] at hfirmware
      by_contra hlegacy
      exact absurd hfirmware (by simp [hlegacy])
    · cases hstored : given b.nvram with
      | none => exact absurd hthere (by simp [hstored])
      | some stored =>
        obtain rfl : leaf "nvram" stored = e := by simpa [hstored] using hthere
        have hends := hsuffix rfl
        rw [leaf, (hplain' stored hstored).trim_eq] at hends
        obtain ⟨cs, hcs⟩ := List.isSuffixOf_iff_suffix.1 hends
        refine ⟨String.ofList cs, congrArg some (String.toList_injective ?_)⟩
        rw [String.toList_append, String.toList_ofList, hcs]

/-! ### Domains -/

/-- The children of the document of a domain that are always there. -/
theorem all_document (d : Domain) {t : String} (ht : t ≠ "memoryBacking") : d.document.all t =
    [leaf "name" d.name, leaf "uuid" d.resolvedIdentifier.text,
      leaf "memory" (toString d.memory.toKiB) [("unit", "KiB")], leaf "vcpu" (toString d.vcpus), d.startElement,
      d.featureElement, Element.empty "cpu" [("mode", "host-model")], clockElement,
      branch "devices" d.deviceElements].filter (·.tag == t) := by
  have hshared : ([sharedMemory].filter fun e => e.tag == t) = [] := by
    simpa [sharedMemory, branch] using Ne.symm ht
  rw [all, document, branch, List.filter_append, List.filter_append]
  cases d.shares.isEmpty
  · rw [if_neg (by decide), hshared, List.append_nil, ← List.filter_append]
    rfl
  · rw [if_pos rfl, List.filter_nil, List.append_nil, ← List.filter_append]
    rfl

/-- Whether a stored domain is, as far as it can be seen, a declared one. -/
structure AgreesWith (a b : Domain) : Prop where
  name : a.name = b.name
  identifier : a.resolvedIdentifier = b.resolvedIdentifier
  memory : a.memory.toKiB = b.memory.toKiB
  vcpus : a.vcpus = b.vcpus
  firmware : a.firmware = b.firmware
  tpm : a.tpm = b.tpm
  disks : a.disks = b.disks
  installMedia : a.installMedia = b.installMedia
  interfaces : a.interfaces.mapIdx a.seenInterface = b.interfaces.mapIdx b.seenInterface
  shares : List.Forall₂ Share.Shows a.shares b.shares
  machine : IsMachineFor a.machine b.machine
  nvram : IsStoreFor a b

section

variable {a b : Domain}

/-- The devices of a kind that belong to the declaration meet each other place by place. -/
theorem forall₂_devices (h : (branch "devices" a.deviceElements).Meets (branch "devices" b.deviceElements)) {t : String}
    (ht : isWord t.toList = true) (howned : t ∈ (Ownership.of "devices").children) :
    List.Forall₂ Meets ((branch "devices" a.deviceElements).all t) ((branch "devices" b.deviceElements).all t) :=
  h.forall₂_owned ht howned (show "devices" ≠ "os" by decide)

theorem tpm_eq_of_meets (h : (branch "devices" a.deviceElements).Meets (branch "devices" b.deviceElements)) :
    a.tpm = b.tpm := by
  have hcount : ∀ d : Domain, ((branch "devices" d.deviceElements).all "tpm").length = d.tpm.toNat := fun d => by
    rw [all_devices]
    cases d.tpm <;> simp [branch, Element.empty]
  have hlength := (forall₂_devices h (t := "tpm") (by decide) (by decide)).length_eq
  rw [hcount, hcount] at hlength
  revert hlength
  cases a.tpm <;> cases b.tpm <;> decide

theorem drives_eq_of_meets (h : (branch "devices" a.deviceElements).Meets (branch "devices" b.deviceElements))
    (ha : Text.ArePlain a.texts) (hb : Text.ArePlain b.texts) : a.drives = b.drives := by
  have hmet := forall₂_devices h (t := "disk") (by decide) (by decide)
  have hall : ∀ d : Domain, (branch "devices" d.deviceElements).all "disk" = d.driveElements := fun d => by
    rw [all_devices]
    cases d.tpm <;> simp [branch, Element.empty]
  rw [hall, hall, driveElements_eq, driveElements_eq] at hmet
  have hplain : ∀ d : Domain, Text.ArePlain d.texts → ∀ x ∈ d.drives,
      Text.ArePlain (x.elim Disk.texts (fun m => [m])) := by
    intro d hd x hx
    rcases List.mem_append.1 hx with hx | hx
    · obtain ⟨k, hk, rfl⟩ := List.mem_map.1 hx
      exact arePlain_disk hd hk
    · obtain ⟨m, hm, rfl⟩ := List.mem_map.1 hx
      exact fun s hs => hd s (by simp_all [texts])
  have hpairs := List.forall₂_iff_get.1 (forall₂_of_zipWith a.length_drives b.length_drives hmet)
  refine List.ext_getElem hpairs.1 fun k hk hk' => ?_
  obtain ⟨u, v, hdrive⟩ := hpairs.2 k hk hk'
  exact eq_of_driveElement_meets hdrive (hplain a ha _ (List.getElem_mem hk)) (hplain b hb _ (List.getElem_mem hk'))

/-- The drives of a domain are its disks and its install media. -/
theorem disks_eq_of_drives (h : a.drives = b.drives) : a.disks = b.disks ∧ a.installMedia = b.installMedia := by
  have hdisks : ∀ d : Domain, d.drives.filterMap Sum.getLeft? = d.disks := fun d => by
    simp [drives, List.filterMap_append, List.filterMap_map, Function.comp_def]
  have hmedia : ∀ d : Domain, d.drives.filterMap Sum.getRight? = d.installMedia := fun d => by
    simp [drives, List.filterMap_append, List.filterMap_map, Function.comp_def]
  exact ⟨by rw [← hdisks, ← hdisks, h], by rw [← hmedia, ← hmedia, h]⟩

theorem interfaces_eq_of_meets (h : (branch "devices" a.deviceElements).Meets (branch "devices" b.deviceElements))
    (ha : Text.ArePlain a.texts) (hb : Text.ArePlain b.texts) :
    a.interfaces.mapIdx a.seenInterface = b.interfaces.mapIdx b.seenInterface := by
  have hall : ∀ d : Domain,
      (branch "devices" d.deviceElements).all "interface" = d.interfaces.mapIdx d.interfaceElement :=
    fun d => by
      rw [all_devices]
      cases d.tpm <;> simp [branch, Element.empty]
  have hmet := forall₂_devices h (t := "interface") (by decide) (by decide)
  rw [hall, hall] at hmet
  obtain ⟨hlength, hmet⟩ := List.forall₂_iff_get.1 hmet
  simp only [List.length_mapIdx] at hlength hmet
  refine List.ext_getElem (by simpa using hlength) fun k hk hk' => ?_
  rw [List.length_mapIdx] at hk hk'
  have hinterface := hmet k hk hk'
  simp only [List.get_eq_getElem, List.getElem_mapIdx] at hinterface ⊢
  exact seenInterface_eq_of_meets hinterface (arePlain_interface ha (List.getElem_mem hk))
    (arePlain_interface hb (List.getElem_mem hk'))

theorem shares_of_meets (h : (branch "devices" a.deviceElements).Meets (branch "devices" b.deviceElements))
    (ha : Text.ArePlain a.texts) (hb : Text.ArePlain b.texts) : List.Forall₂ Share.Shows a.shares b.shares := by
  have hall : ∀ d : Domain,
      (branch "devices" d.deviceElements).all "filesystem" = d.shares.map shareElement := fun d => by
    rw [all_devices]
    cases d.tpm <;> simp [branch, Element.empty]
  have hmet := forall₂_devices h (t := "filesystem") (by decide) (by decide)
  rw [hall, hall, List.forall₂_map_left_iff, List.forall₂_map_right_iff] at hmet
  obtain ⟨hlength, hmet⟩ := List.forall₂_iff_get.1 hmet
  refine List.forall₂_iff_get.2 ⟨hlength, fun k hk hk' => ?_⟩
  exact shows_of_meets (hmet k hk hk') (arePlain_share ha (List.getElem_mem hk))
    (arePlain_share hb (List.getElem_mem hk'))

/-- **A domain whose document meets that of another one** agrees with it on what it declares. A name is not empty. -/
theorem agreesWith_of_meets (h : a.document.Meets b.document) (ha : Text.ArePlain a.texts) (hb : Text.ArePlain b.texts)
    (hname : a.name ≠ "") : a.AgreesWith b := by
  -- each field is told by the leaf or the branch that is written for it
  have hname : a.name = b.name := h.child_leaf_eq (t := "name") (by decide)
    ((all_document a (by decide)).trans rfl) ((all_document b (by decide)).trans rfl)
    (ha a.name (by simp [texts])).stands (hb b.name (by simp [texts])).stands hname
  have hidentifier : a.resolvedIdentifier.text = b.resolvedIdentifier.text := h.child_leaf_eq (t := "uuid") (by decide)
    ((all_document a (by decide)).trans rfl) ((all_document b (by decide)).trans rfl)
    (Text.stands_identifier _) (Text.stands_identifier _) (Identifier.text_ne_empty _)
  have hmemory : toString a.memory.toKiB = toString b.memory.toKiB := h.child_leaf_eq (t := "memory") (by decide)
    ((all_document a (by decide)).trans rfl) ((all_document b (by decide)).trans rfl)
    (Text.stands_of_isVisible (isVisible_repr _)) (Text.stands_of_isVisible (isVisible_repr _)) Nat.repr_ne_empty
  have hvcpus : toString a.vcpus = toString b.vcpus := h.child_leaf_eq (t := "vcpu") (by decide)
    ((all_document a (by decide)).trans rfl) ((all_document b (by decide)).trans rfl)
    (Text.stands_of_isVisible (isVisible_int _)) (Text.stands_of_isVisible (isVisible_int _))
    (Text.toString_int_ne_empty _)
  have hstart : a.startElement.Meets b.startElement :=
    h.child (t := "os") (by decide) ((all_document a (by decide)).trans rfl) ((all_document b (by decide)).trans rfl)
  have hdevices : (branch "devices" a.deviceElements).Meets (branch "devices" b.deviceElements) :=
    h.child (t := "devices") (by decide) ((all_document a (by decide)).trans rfl)
      ((all_document b (by decide)).trans rfl)
  obtain ⟨hdisks, hmedia⟩ := disks_eq_of_drives (drives_eq_of_meets hdevices ha hb)
  exact {
    name := hname
    identifier := Identifier.text_injective hidentifier
    memory := Text.toString_nat_injective hmemory
    vcpus := Text.toString_int_injective hvcpus
    firmware := firmware_eq_of_meets hstart
    tpm := tpm_eq_of_meets hdevices
    disks := hdisks
    installMedia := hmedia
    interfaces := interfaces_eq_of_meets hdevices ha hb
    shares := shares_of_meets hdevices ha hb
    machine := machine_of_meets hstart (ha a.machine (by simp [texts])) (hb b.machine (by simp [texts]))
    nvram := nvram_of_meets hstart (fun path hpath => ha path (by simp [texts, hpath]))
      fun path hpath => hb path (by simp [texts, hpath]) }

/-- **The difference between two domains.** If the document of one meets that of another, they agree on what they
declare, except that a program which serves a share is seen only if the first one names it. -/
theorem agreesWith_of_documentsMatch {declared stored : String} (ha : Text.ArePlain a.texts) (hb : Text.ArePlain b.texts)
    (hname : a.name ≠ "") (hdeclared : a.written = .ok declared) (hstored : b.written = .ok stored)
    (h : documentsMatch declared stored = true) : a.AgreesWith b := by
  have hprint : ∀ {d : Domain} {text : String}, Text.ArePlain d.texts → d.written = .ok text →
      text = d.document.print := by
    intro d text hd htext
    rw [written_eq hd] at htext
    split at htext
    · exact (Except.ok.inj htext).symm
    · exact nomatch htext
  rw [hprint ha hdeclared, hprint hb hstored] at h
  exact agreesWith_of_meets ((legible ha).meets_of_documentsMatch (legible hb) h) ha hb hname

end

/-- A domain with a share that names no program to serve it. -/
def sharing : Domain where
  name := "guest"
  identifier := some ⟨1⟩
  memory := ⟨1, .GiB⟩
  machine := "pc"
  shares := [{ hostPath := "/srv", mountTag := "srv" }]

/-- The same domain as a host may store it: under the full name of its machine, with a program that serves the
share. -/
def serving : Domain :=
  { sharing with
    machine := "pc-i440fx-9.0"
    shares := [{ hostPath := "/srv", mountTag := "srv", binaryPath := some "/usr/libexec/virtiofsd" }] }

theorem sharing_meets_serving : documentsMatch sharing.document.print serving.document.print = true := by
  have hsharing : sharing.document.Legible := legible (by decide)
  have hserving : serving.document.Legible := legible (by decide)
  rw [documentsMatch, hsharing.read?_print, hserving.read?_print]
  decide +kernel

theorem written_sharing : sharing.written = .ok sharing.document.print := by
  rw [written_eq (by decide), if_pos (Text.isWritable_of_lt (by decide))]

theorem written_serving : serving.written = .ok serving.document.print := by
  rw [written_eq (by decide), if_pos (Text.isWritable_of_lt (by decide))]

theorem sharing_agreesWith_serving : sharing.AgreesWith serving :=
  agreesWith_of_documentsMatch (by decide) (by decide) (by decide) written_sharing written_serving sharing_meets_serving

/-- **The program that serves a share is a blind spot**: these domains match, but only one of them has a program. -/
theorem binary_unseen : ∃ declared stored, sharing.written = .ok declared ∧ serving.written = .ok stored ∧
    documentsMatch declared stored = true ∧
      sharing.shares.map (given ·.binaryPath) ≠ serving.shares.map (given ·.binaryPath) :=
  ⟨_, _, written_sharing, written_serving, sharing_meets_serving, by decide⟩

end Domain

end VirtualTopology
