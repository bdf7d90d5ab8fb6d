import VirtualTopology.Pass.Domains
import VirtualTopology.Proofs.Document.Faithful

/-!
# Appended interfaces

A domain that gets more interfaces behind the ones it has keeps those as they are: an interface without a hardware
address gets one that is derived from its place, and no place before the new ones changes. So what a host reads of the
new document begins with everything it reads of the old one (`Domain.interfaceEntries_append`). The documents differ,
because interfaces belong to the declaration and their number has changed (`Domain.length_interfaces_eq_of_match`), and
the change is told as what it is: the networks of the added interfaces, in order. Nothing else is ever told in this way
(`describesAppended_iff`).
-/

namespace VirtualTopology

open Document Element

/-! ### What is told about a change -/

section

variable {declared stored : String} {d s : Element}

/-- **Interfaces that were only added are listed.** -/
theorem describeChange_of_append (hd : Element.read? declared = some d) (hs : Element.read? stored = some s)
    {added : List InterfaceEntry} (h : d.interfaceEntries = s.interfaceEntries ++ added) (hadded : added ≠ []) :
    Domain.describeChange declared stored =
      "appended interfaces: " ++ ", ".intercalate (added.map Domain.listedAs) := by
  have hne : d.interfaceEntries ≠ s.interfaceEntries := by simpa [h] using hadded
  have hprefix : s.interfaceEntries.isPrefixOf d.interfaceEntries = true :=
    List.isPrefixOf_iff_prefix.2 ⟨added, h.symm⟩
  have hrest : d.interfaceEntries.drop s.interfaceEntries.length = added := by rw [h, List.drop_left]
  simp only [Domain.describeChange, hd, hs]
  rw [if_neg hne, if_pos hprefix, hrest]

/-- **Only then a change is told so**: what is told begins with these words exactly if the stored interfaces are the
first ones of the declared interfaces, but not all. -/
theorem describesAppended_iff (hd : Element.read? declared = some d) (hs : Element.read? stored = some s) :
    (∃ rest, Domain.describeChange declared stored = "appended interfaces" ++ rest) ↔
      s.interfaceEntries <+: d.interfaceEntries ∧ s.interfaceEntries ≠ d.interfaceEntries := by
  constructor
  · rintro ⟨rest, hrest⟩
    have hother : ∀ told : String, told.toList.head? ≠ some 'a' → told ≠ "appended interfaces" ++ rest := by
      rintro told hhead rfl
      exact hhead (by rw [String.toList_append]; rfl)
    simp only [Domain.describeChange, hd, hs] at hrest
    split at hrest
    · exact absurd hrest (hother _ (by decide))
    · next hne =>
      split at hrest
      · next hprefix => exact ⟨List.isPrefixOf_iff_prefix.1 hprefix, Ne.symm hne⟩
      · exact absurd hrest (hother _ (by decide))
  · rintro ⟨⟨added, hadded⟩, hne⟩
    have hsome : added ≠ [] := by
      rintro rfl
      exact hne (by simpa using hadded)
    exact ⟨": " ++ ", ".intercalate (added.map Domain.listedAs), by
      rw [describeChange_of_append hd hs hadded.symm hsome, ← String.append_assoc]
      rfl⟩

end

namespace Domain

/-! ### Interfaces behind the others -/

section

variable {d : Domain} {is : List Interface}

theorem foldl_withInterface (d : Domain) (is : List Interface) :
    is.foldl withInterface d = { d with interfaces := d.interfaces ++ is } := by
  induction is generalizing d with
  | nil => simp
  | cons i is ih => simp [ih, withInterface]

/-- What a host reads of an added interface, which stands behind those of the domain. -/
def addedEntry (d : Domain) (place : Nat) (i : Interface) : InterfaceEntry where
  network := some (shown i.network)
  model := some (shown i.model)
  mac := some (shown (d.hardwareAddress (d.interfaces.length + place) i))

theorem IsRead.append (h : d.IsRead) (hread : ∀ i ∈ is, ∃ data, Interface.reading data = .valid i) :
    (is.foldl withInterface d).IsRead := by
  rw [foldl_withInterface]
  have hadded : ∀ i ∈ is, i.network ≠ "" ∧ ∀ mac, i.mac = some mac → HardwareAddress.accepts mac.toList = true :=
    fun i hi => (hread i hi).elim fun _ => Interface.of_reading
  exact ⟨List.forall_mem_append.2 ⟨h.network_ne, fun i hi => (hadded i hi).1⟩,
    List.forall_mem_append.2 ⟨h.mac_accepted, fun i hi => (hadded i hi).2⟩, h.pool_ne⟩

/-- **Added interfaces leave the others as they are**, with the hardware addresses that are derived for them. -/
theorem interfaceEntries_append (h : d.IsRead) (hread : ∀ i ∈ is, ∃ data, Interface.reading data = .valid i) :
    ((is.foldl withInterface d).document.asRead 0).interfaceEntries =
      (d.document.asRead 0).interfaceEntries ++ is.mapIdx d.addedEntry := by
  have haddress : (is.foldl withInterface d).hardwareAddress = d.hardwareAddress := by
    rw [foldl_withInterface]
    rfl
  have hinterfaces : (is.foldl withInterface d).interfaces = d.interfaces ++ is := by rw [foldl_withInterface]
  rw [interfaceEntries_asRead h, interfaceEntries_asRead (h.append hread), haddress, hinterfaces, List.mapIdx_append]
  refine congrArg (_ ++ ·) (List.mapIdx_eq_mapIdx_iff.2 fun place _ => ?_)
  rw [addedEntry, Nat.add_comm]

theorem listedAs_addedEntry {i : Interface} (h : ∃ data, Interface.reading data = .valid i) (place : Nat) :
    listedAs (d.addedEntry place i) = shown i.network := by
  obtain ⟨data, hdata⟩ := h
  have hshown := shown_ne_empty (Interface.of_reading hdata).1
  rw [listedAs, addedEntry, Option.filter_some, if_pos (by simpa using hshown), Option.getD_some]

end

/-! ### Documents with other numbers of interfaces -/

theorem keepsShape_unify : KeepsShape fun _ => unify :=
  ⟨fun _ => tag_unify, fun _ e => by
    obtain ⟨tag, attributes, lead, children⟩ := e
    rw [unify, unifyAll_eq_map]⟩

/-- **Documents that match have as many interfaces.** -/
theorem length_interfaces_eq_of_match {a b : Domain} {declared stored : String} (ha : a.written = .ok declared)
    (hb : b.written = .ok stored) (h : documentsMatch declared stored = true) :
    a.interfaces.length = b.interfaces.length := by
  have hreada := (Declaration.domain a).orderly.framed.read?_render (Declaration.render_eq_of_written ha)
  have hreadb := (Declaration.domain b).orderly.framed.read?_render (Declaration.render_eq_of_written hb)
  rw [documentsMatch, hreada, hreadb] at h
  have hdevices : ∀ d : Domain, d.document.unify.all "devices" = [(branch "devices" d.deviceElements).unify] := by
    intro d
    rw [keepsShape_unify.all_eq 0 d.document "devices", all_document d (by decide)]
    rfl
  have hcount : ∀ d : Domain,
      ((branch "devices" d.deviceElements).unify.all "interface").length = d.interfaces.length := by
    intro d
    rw [keepsShape_unify.all_eq 0 _ "interface", List.length_map, all_devices]
    cases d.tpm <;> simp [branch, Element.empty]
  have hmeets : a.document.unify.Meets b.document.unify := ⟨0, 0, h⟩
  have hinside := hmeets.child (by decide) (hdevices a) (hdevices b)
  have htag : (branch "devices" a.deviceElements).unify.tag = "devices" := tag_unify _
  have hplaces := hinside.forall₂_owned (t := "interface") (by decide) (by rw [htag]; decide) (by rw [htag]; decide)
  rw [← hcount a, ← hcount b]
  exact hplaces.length_eq

/-! ### Appending -/

/-- **Appending interfaces is additive**: what a host reads of the new document is what it reads of the old one and
behind it one entry for each added interface; the documents do not match; and the change is told as the networks of the
added interfaces, as they are read. Of whatever documents, no other change is told so. -/
theorem appended_interfaces :
    (∀ (d : Domain) (is : List Interface) (text text' : String), d.IsRead → is ≠ [] →
      (∀ i ∈ is, ∃ data, Interface.reading data = .valid i) → d.written = .ok text →
      (is.foldl withInterface d).written = .ok text' →
      ∃ e e', Element.read? text = some e ∧ Element.read? text' = some e' ∧
        e'.interfaceEntries = e.interfaceEntries ++ is.mapIdx d.addedEntry ∧ documentsMatch text' text = false ∧
        describeChange text' text = "appended interfaces: " ++ ", ".intercalate (is.map (shown ·.network))) ∧
    ∀ declared stored d s, Element.read? declared = some d → Element.read? stored = some s →
      ((∃ rest, describeChange declared stored = "appended interfaces" ++ rest) ↔
        s.interfaceEntries <+: d.interfaceEntries ∧ s.interfaceEntries ≠ d.interfaceEntries) := by
  refine ⟨fun d is text text' hd hne hread h h' => ?_, fun declared stored d s => describesAppended_iff⟩
  have he := (Declaration.domain d).orderly.framed.read?_render (Declaration.render_eq_of_written h)
  have he' := (Declaration.domain _).orderly.framed.read?_render (Declaration.render_eq_of_written h')
  have hentries := interfaceEntries_append hd hread
  have hlisted : (is.mapIdx d.addedEntry).map listedAs = is.map (shown ·.network) := by
    refine List.ext_getElem (by simp) fun place hplace hplace' => ?_
    rw [List.getElem_map, List.getElem_mapIdx, List.getElem_map]
    exact listedAs_addedEntry (hread _ (List.getElem_mem _)) place
  have hadded : is.mapIdx d.addedEntry ≠ [] := by simpa using hne
  refine ⟨_, _, he, he', hentries, ?_, ?_⟩
  · refine Bool.eq_false_iff.2 fun hmatch => hne ?_
    have hlength := length_interfaces_eq_of_match h' h hmatch
    rw [foldl_withInterface, List.length_append] at hlength
    exact List.length_eq_zero_iff.1 (by omega)
  · rw [describeChange_of_append he' he hentries hadded, hlisted]

/-- Two interfaces without hardware addresses. -/
def twoMore : List Interface := [{ network := "lab" }, { network := "dmz" }]

/-- A domain with an interface gets two more. -/
theorem appended_interfaces_attached : ∃ text text', attached.written = .ok text ∧
    (twoMore.foldl withInterface attached).written = .ok text' ∧ documentsMatch text' text = false ∧
      describeChange text' text = "appended interfaces: lab, dmz" ∧
      ∃ e e', Element.read? text = some e ∧ Element.read? text' = some e' ∧
        e.interfaceEntries <+: e'.interfaceEntries := by
  have hread : reading attached.dump = .valid attached := by rfl
  have hadded : ∀ i ∈ twoMore, ∃ data, Interface.reading data = .valid i :=
    List.forall_mem_cons.2 ⟨⟨Interface.dump { network := "lab" }, by rfl⟩,
      List.forall_mem_singleton.2 ⟨Interface.dump { network := "dmz" }, by rfl⟩⟩
  have hwritten : attached.written = .ok attached.document.print := by
    rw [written_eq (by decide), if_pos (Text.isWritable_of_lt (by decide))]
  have hwritten' : (twoMore.foldl withInterface attached).written =
      .ok (twoMore.foldl withInterface attached).document.print := by
    rw [written_eq (by decide), if_pos (Text.isWritable_of_lt (by decide))]
  obtain ⟨e, e', he, he', -, hmatch, htold⟩ := appended_interfaces.1 attached twoMore _ _ (isRead_of_reading hread)
    (by simp [twoMore]) hadded hwritten hwritten'
  have hlisted := htold.trans (show _ = "appended interfaces: lab, dmz" by decide)
  have hprefix := ((appended_interfaces.2 _ _ e' e he' he).1 ⟨": lab, dmz", hlisted.trans (by decide)⟩).1
  exact ⟨_, _, hwritten, hwritten', hmatch, hlisted, e, e', he, he', hprefix⟩

end Domain

end VirtualTopology
