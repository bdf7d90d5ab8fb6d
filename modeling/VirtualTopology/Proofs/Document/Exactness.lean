import VirtualTopology.Proofs.Document.Difference

/-!
# What a match of two networks or of two pools says about them

For networks and pools matching is exact: the document of one matches that of another if and only if the two agree on
everything that a document states (`Network.AgreesWith`, `Pool.AgreesWith`, `documentsMatch_iff_agreesWith`). Nothing is
hidden, as the program that serves a share is for domains, and nothing is told apart that is declared alike.

One direction is the self-match of a legible document, for resources that agree have the same document. In the other
one, the parts that always stand in a document are compared one by one. The parts that may be missing, the way traffic
leaves a network and the range of addresses that it hands out, belong to the declaration: a document without such a part
does not match one with it (`Element.Meets.optional_eq`).
-/

namespace VirtualTopology

open Document Element

/-! ### Addresses -/

theorem Address.text_injective : Function.Injective Address.text := by
  intro a b h
  have hread := congrArg ofText? h
  rw [ofText?_text, ofText?_text] at hread
  exact Option.some.inj hread

theorem Text.stands_address (a : Address) : Stands a.text := stands_of_isVisible (isVisible_address a)

/-! ### Parts that may be missing -/

namespace Element.Meets

variable {d s : Element} (h : d.Meets s)

include h

/-- **A part that may be missing is the same**, or it is missing on both sides. -/
theorem optional_eq {α : Type} {make : α → Element} (hmake : ∀ v w, (make v).Meets (make w) → v = w) {t : String}
    (ht : isWord t.toList = true) (howned : t ∈ (Ownership.of d.tag).children) (htag : d.tag ≠ "os") {x y : Option α}
    (hd : d.all t = x.toList.map make) (hs : s.all t = y.toList.map make) : x = y := by
  have hmet := h.forall₂_owned ht howned htag
  rw [hd, hs] at hmet
  cases x with
  | none =>
    cases y with
    | none => rfl
    | some w => exact absurd hmet.length_eq (by simp)
  | some v =>
    cases y with
    | none => exact absurd hmet.length_eq (by simp)
    | some w =>
      rw [Option.toList_some, Option.toList_some, List.map_singleton, List.map_singleton, List.forall₂_cons] at hmet
      rw [hmake v w hmet.1]

end Element.Meets

/-! ### Networks -/

/-- Whether two networks agree on everything that their documents state. -/
structure Network.AgreesWith (a b : Network) : Prop where
  name : a.name = b.name
  identifier : a.resolvedIdentifier = b.resolvedIdentifier
  forward : a.forward = b.forward
  bridge : a.bridge = b.bridge
  gateway : a.gateway = b.gateway
  netmask : a.netmask = b.netmask
  dhcp : a.dhcp = b.dhcp

/-- The mode that is stated in a document: that of an isolated network is not. -/
def ForwardMode.stated (f : ForwardMode) : Option ForwardMode := if f = isolated then none else some f

theorem ForwardMode.stated_injective : Function.Injective stated := by
  intro f g h
  cases f <;> cases g <;> first | rfl | exact nomatch h

theorem ForwardMode.word_injective : Function.Injective word := by
  intro f g h
  cases f <;> cases g <;> first | rfl | exact absurd h (by decide)

theorem ForwardMode.stands_word (f : ForwardMode) : Text.Stands f.word := by
  cases f <;> exact Text.stands_of_isVisible (by decide)

namespace Network

/-- The element of a mode. -/
def forwardElement (f : ForwardMode) : Element := empty "forward" [("mode", f.word)]

/-- The element of the addresses that are handed out. -/
def dhcpElement (r : DhcpRange) : Element :=
  branch "dhcp" [empty "range" [("start", r.start.text), ("end", r.finish.text)]]

/-- The element of the addresses. -/
def addressElement (n : Network) : Element :=
  branch "ip" (n.dhcp.toList.map dhcpElement) [("address", n.gateway.text), ("netmask", n.netmask.text)]

theorem document_eq (n : Network) : n.document = branch "network"
    ([leaf "name" n.name, leaf "uuid" n.resolvedIdentifier.text] ++ n.forward.stated.toList.map forwardElement ++
      [empty "bridge" [("name", n.bridge)], n.addressElement]) := by
  cases hforward : n.forward <;> cases hdhcp : n.dhcp <;>
    simp [document, hforward, hdhcp, ForwardMode.stated, forwardElement, addressElement, dhcpElement]

theorem AgreesWith.document_eq {a b : Network} (h : a.AgreesWith b) : a.document = b.document := by
  rw [document, document, h.name, h.identifier, h.forward, h.bridge, h.gateway, h.netmask, h.dhcp]

theorem eq_of_forwardElement_meets {f g : ForwardMode} (h : (forwardElement f).Meets (forwardElement g)) : f = g :=
  ForwardMode.word_injective
    (h.attribute_eq "mode" rfl rfl f.stands_word g.stands_word (show "forward" ≠ "type" by decide))

theorem eq_of_dhcpElement_meets {r u : DhcpRange} (h : (dhcpElement r).Meets (dhcpElement u)) : r = u := by
  have hstart := Address.text_injective (h.child_attribute_eq "range" "start" (by decide) (by decide) rfl rfl rfl rfl
    (Text.stands_address _) (Text.stands_address _))
  have hfinish := Address.text_injective (h.child_attribute_eq "range" "end" (by decide) (by decide) rfl rfl rfl rfl
    (Text.stands_address _) (Text.stands_address _))
  cases r
  cases u
  simp_all

section

variable {a b : Network}

/-- What two networks say about their addresses, if the elements for that meet. -/
theorem addresses_eq_of_meets (h : a.addressElement.Meets b.addressElement) :
    a.gateway = b.gateway ∧ a.netmask = b.netmask ∧ a.dhcp = b.dhcp := by
  have htag : "ip" ≠ "type" := by decide
  have hall : ∀ n : Network, n.addressElement.all "dhcp" = n.dhcp.toList.map dhcpElement := by
    intro n
    rw [all, addressElement, branch]
    cases n.dhcp <;> rfl
  refine ⟨Address.text_injective ?_, Address.text_injective ?_, ?_⟩
  · exact h.attribute_eq "address" rfl rfl (Text.stands_address _) (Text.stands_address _) htag
  · exact h.attribute_eq "netmask" rfl rfl (Text.stands_address _) (Text.stands_address _) htag
  · exact h.optional_eq (fun _ _ => eq_of_dhcpElement_meets) (by decide)
      (show "dhcp" ∈ (Ownership.of "ip").children by decide) (show "ip" ≠ "os" by decide) (hall a) (hall b)

/-- What stands in the document of a network, by its tags. -/
theorem all_document (n : Network) :
    n.document.all "name" = [leaf "name" n.name] ∧ n.document.all "uuid" = [leaf "uuid" n.resolvedIdentifier.text] ∧
    n.document.all "forward" = n.forward.stated.toList.map forwardElement ∧
    n.document.all "bridge" = [empty "bridge" [("name", n.bridge)]] ∧ n.document.all "ip" = [n.addressElement] := by
  rw [document_eq]
  cases n.forward.stated with
  | none => exact ⟨rfl, rfl, rfl, rfl, rfl⟩
  | some f => exact ⟨rfl, rfl, rfl, rfl, rfl⟩

/-- **Networks whose documents meet agree.** -/
theorem agreesWith_of_meets (h : a.document.Meets b.document) (ha : Text.ArePlain a.texts)
    (hb : Text.ArePlain b.texts) (hname : a.name ≠ "") : a.AgreesWith b := by
  obtain ⟨hnames, huuids, hforwards, hbridges, haddresses⟩ := a.all_document
  obtain ⟨hnames', huuids', hforwards', hbridges', haddresses'⟩ := b.all_document
  obtain ⟨hgateway, hnetmask, hdhcp⟩ := addresses_eq_of_meets (h.child (by decide) haddresses haddresses')
  exact {
    name := h.child_leaf_eq (by decide) hnames hnames' (ha a.name (by simp [texts])).stands
      (hb b.name (by simp [texts])).stands hname
    identifier := Identifier.text_injective (h.child_leaf_eq (by decide) huuids huuids' (Text.stands_identifier _)
      (Text.stands_identifier _) (Identifier.text_ne_empty _))
    forward := ForwardMode.stated_injective (h.optional_eq (fun _ _ => eq_of_forwardElement_meets) (by decide)
      (show "forward" ∈ (Ownership.of "network").children by decide) (show "network" ≠ "os" by decide) hforwards
      hforwards')
    bridge := h.child_attribute_eq "bridge" "name" (by decide) (by decide) hbridges hbridges' rfl rfl
      (ha a.bridge (by simp [texts])).stands (hb b.bridge (by simp [texts])).stands
    gateway := hgateway
    netmask := hnetmask
    dhcp := hdhcp }

/-- **The difference between two networks is exact.** -/
theorem documentsMatch_iff_agreesWith (ha : Text.ArePlain a.texts) (hb : Text.ArePlain b.texts) (hname : a.name ≠ "") :
    documentsMatch a.document.print b.document.print = true ↔ a.AgreesWith b := by
  constructor
  · intro h
    exact agreesWith_of_meets ((legible ha).meets_of_documentsMatch (legible hb) h) ha hb hname
  · intro h
    rw [← h.document_eq]
    exact (legible ha).documentsMatch_print

end

end Network

/-! ### Pools -/

/-- Whether two pools agree on everything that their documents state. Their volumes are not stated there. -/
structure Pool.AgreesWith (p q : Pool) : Prop where
  name : p.name = q.name
  identifier : p.resolvedIdentifier = q.resolvedIdentifier
  kind : p.kind = q.kind
  target : p.target = q.target

namespace Pool

variable {p q : Pool}

theorem AgreesWith.document_eq (h : p.AgreesWith q) : p.document = q.document := by
  rw [document, document, h.name, h.identifier, h.kind, h.target]

/-- **Pools whose documents meet agree.** -/
theorem agreesWith_of_meets (h : p.document.Meets q.document) (hp : Text.ArePlain p.texts)
    (hq : Text.ArePlain q.texts) (hname : p.name ≠ "") (htarget : p.target ≠ "") : p.AgreesWith q := by
  have htargets : (branch "target" [leaf "path" p.target]).Meets (branch "target" [leaf "path" q.target]) :=
    h.child (t := "target") (by decide) rfl rfl
  exact {
    name := h.child_leaf_eq (t := "name") (by decide) rfl rfl (hp p.name (by simp [texts])).stands
      (hq q.name (by simp [texts])).stands hname
    identifier := Identifier.text_injective (h.child_leaf_eq (t := "uuid") (by decide) rfl rfl
      (Text.stands_identifier _) (Text.stands_identifier _) (Identifier.text_ne_empty _))
    kind := h.attribute_eq "type" rfl rfl (hp p.kind (by simp [texts])).stands (hq q.kind (by simp [texts])).stands
      (show "pool" ≠ "type" by decide)
    target := htargets.child_leaf_eq (t := "path") (by decide) rfl rfl (hp p.target (by simp [texts])).stands
      (hq q.target (by simp [texts])).stands htarget }

/-- **The difference between two pools is exact.** -/
theorem documentsMatch_iff_agreesWith (hp : Text.ArePlain p.texts) (hq : Text.ArePlain q.texts) (hname : p.name ≠ "")
    (htarget : p.target ≠ "") : documentsMatch p.document.print q.document.print = true ↔ p.AgreesWith q := by
  constructor
  · intro h
    exact agreesWith_of_meets ((legible hp).meets_of_documentsMatch (legible hq) h) hp hq hname htarget
  · intro h
    rw [← h.document_eq]
    exact (legible hp).documentsMatch_print

end Pool

/-! ### Both -/

/-- **The difference is exact**: plain networks have documents, and these match if and only if the networks agree on
everything that a document states; so do plain pools. What is declared has a name, and a pool has a target: an empty
text would meet every other one. -/
theorem documentsMatch_exact (a b : Network) (p q : Pool) :
    (Text.ArePlain a.texts → Text.ArePlain b.texts → a.name ≠ "" →
      ∃ declared stored, a.written = .ok declared ∧ b.written = .ok stored ∧
        (documentsMatch declared stored = true ↔ a.AgreesWith b)) ∧
    (Text.ArePlain p.texts → Text.ArePlain q.texts → p.name ≠ "" → p.target ≠ "" →
      ∃ declared stored, p.written = .ok declared ∧ q.written = .ok stored ∧
        (documentsMatch declared stored = true ↔ p.AgreesWith q)) := by
  constructor
  · intro ha hb hname
    exact ⟨_, _, Network.written_eq ha, Network.written_eq hb, Network.documentsMatch_iff_agreesWith ha hb hname⟩
  · intro hp hq hname htarget
    exact ⟨_, _, Pool.written_eq hp, Pool.written_eq hq, Pool.documentsMatch_iff_agreesWith hp hq hname htarget⟩

/-- A network that hands out addresses. -/
def Network.withRange : Network where
  name := "lab"
  identifier := none
  forward := .nat
  bridge := "virbr10"
  gateway := .ofQuads 10 0 0 1
  netmask := Network.defaultNetmask
  dhcp := some { start := .ofQuads 10 0 0 100, finish := .ofQuads 10 0 0 200 }
  active := true
  autostart := true

/-- A pool of volumes in a directory. -/
def Pool.inDirectory : Pool where
  name := "images"
  identifier := none
  kind := "dir"
  target := "/srv/images"
  volumes := []
  active := true
  autostart := true

/-- A network that stops to hand out addresses differs from what is stored; a pool that is not to be active any more
does not. -/
theorem documentsMatch_exact_withRange :
    (∃ declared stored, { Network.withRange with dhcp := none }.written = .ok declared ∧
      Network.withRange.written = .ok stored ∧ documentsMatch declared stored = false) ∧
    ∃ declared stored, { Pool.inDirectory with active := false }.written = .ok declared ∧
      Pool.inDirectory.written = .ok stored ∧ documentsMatch declared stored = true := by
  obtain ⟨hnetworks, hpools⟩ := documentsMatch_exact { Network.withRange with dhcp := none } Network.withRange
    { Pool.inDirectory with active := false } Pool.inDirectory
  constructor
  · obtain ⟨declared, stored, hdeclared, hstored, hmatch⟩ := hnetworks (by decide) (by decide) (by decide)
    refine ⟨declared, stored, hdeclared, hstored, Bool.eq_false_iff.2 fun h => ?_⟩
    exact nomatch (hmatch.1 h).dhcp
  · obtain ⟨declared, stored, hdeclared, hstored, hmatch⟩ := hpools (by decide) (by decide) (by decide) (by decide)
    exact ⟨declared, stored, hdeclared, hstored, hmatch.2 ⟨rfl, rfl, rfl, rfl⟩⟩

end VirtualTopology
