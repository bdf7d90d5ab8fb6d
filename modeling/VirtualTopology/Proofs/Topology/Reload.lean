import VirtualTopology.Proofs.Data.Settling
import VirtualTopology.Topology.Loading

/-!
# Desired states are read back from their records

What a desired state was read from may leave fields to their defaults, give a size as a text and numbers as texts.
Its record has every field in one form. The main result is `Desired.reload`: the record of a desired state that was
read is read again, as the same desired state, and loading it gives the same with any settings for guests, since
no item of the list of domains names a profile.

Each kind of record has a lemma that its reading settles, which follows from the fields; a field that is checked or
normalised (a netmask, a hardware address, an entry for a volume) is written in a form that passes its check.
-/

namespace VirtualTopology

open Checked Reading

/-! ### Parts -/

theorem Quantity.unitReading_word (u : SizeUnit) : unitReading (.text u.word) = .valid u := by
  cases u <;> rfl

/-- A size is written as a record, also if it was read from a text. -/
theorem Quantity.reading_settles : Settles reading dump := by
  intro d q _
  let m := entriesOf [("count", .int q.count), ("unit", .text q.unit.word)]
  have hcount : Reading.required m "count" Reading.natural = .valid q.count :=
    required_entriesOf rfl (settles_natural (.int q.count) _ rfl)
  have hunit : Reading.defaulted m "unit" .GiB unitReading = .valid q.unit :=
    defaulted_entriesOf rfl (unitReading_word q.unit)
  calc reading q.dump
    _ = Reading.sealed ["count", "unit"] m (Quantity.mk <$> Reading.required m "count" Reading.natural
        <*> Reading.defaulted m "unit" .GiB unitReading) := rfl
    _ = Quantity.mk <$> Reading.required m "count" Reading.natural
        <*> Reading.defaulted m "unit" .GiB unitReading := sealed_entriesOf (by rfl) (by decide) _
    _ = .valid q := by
      rw [hcount, hunit]
      rfl

theorem DhcpRange.reading_settles : Settles reading dump := by
  refine Settles.record (fun _ => rfl) (by decide) fun m r h => ?_
  simp only [seq_eq_valid_iff, map_eq_valid_iff] at h
  obtain ⟨_, finish, ⟨start, hstart, rfl⟩, hfinish, rfl⟩ := h
  rw [settles_address.required hstart rfl, settles_address.required hfinish rfl]
  rfl

theorem Network.netmaskReading_settles : Settles netmaskReading fun a => .text a.text := by
  refine settles_address.checked fun a b h => ?_
  split at h
  · exact (Checked.valid.inj h).symm
  · exact nomatch h

theorem Network.reading_settles : Settles reading dump := by
  refine Settles.record (fun _ => rfl) (by decide) fun m n h => ?_
  simp only [seq_eq_valid_iff, map_eq_valid_iff] at h
  obtain ⟨_, autostart, ⟨_, active, ⟨_, dhcp, ⟨_, netmask, ⟨_, gateway, ⟨_, bridge, ⟨_, forward, ⟨_, identifier,
    ⟨name, hname, rfl⟩, hidentifier, rfl⟩, hforward, rfl⟩, hbridge, rfl⟩, hgateway, rfl⟩, hnetmask, rfl⟩, hdhcp,
    rfl⟩, hactive, rfl⟩, hautostart, rfl⟩ := h
  have hmodes : Settles (among (ForwardMode.all.map fun f => (f.word, f))) fun f => .text f.word :=
    settles_among fun f _ => by cases f <;> rfl
  rw [settles_name.required hname rfl, settles_identifier.optionalWord.defaulted rfl hidentifier rfl,
    hmodes.defaulted rfl hforward rfl, settles_name.required hbridge rfl, settles_address.required hgateway rfl,
    netmaskReading_settles.defaulted rfl hnetmask rfl,
    (DhcpRange.reading_settles.optional fun _ => nofun).defaulted rfl hdhcp rfl,
    settles_bool.defaulted rfl hactive rfl, settles_bool.defaulted rfl hautostart rfl]
  rfl

theorem Volume.reading_settles : Settles reading dump := by
  refine Settles.record (fun _ => rfl) (by decide) fun m v h => ?_
  simp only [seq_eq_valid_iff, map_eq_valid_iff] at h
  obtain ⟨_, format, ⟨_, capacity, ⟨name, hname, rfl⟩, hcapacity, rfl⟩, hformat, rfl⟩ := h
  rw [settles_name.required hname rfl, Quantity.reading_settles.required hcapacity rfl,
    settles_text.defaulted rfl hformat rfl]
  rfl

/-- What an entry is checked for is seen from the entry alone. -/
theorem VolumeEntry.reading_settles : Reading.Settles reading dump := by
  have hchecked : reading = fun d => (Reading.record (fun m => Reading.sealed ["name", "present", "volume"] m
      (VolumeEntry.mk <$> Reading.required m "name" Reading.name
        <*> Reading.defaulted m "present" true Reading.bool
        <*> Reading.defaulted m "volume" none (Reading.optional Volume.reading))) d).andThen agree := by
    funext d
    unfold reading Reading.record
    split <;> rfl
  rw [hchecked]
  refine Settles.checked (Settles.record (fun _ => rfl) (by decide) fun m e h => ?_) fun a b h => ?_
  · simp only [seq_eq_valid_iff, map_eq_valid_iff] at h
    obtain ⟨_, volume, ⟨_, present, ⟨name, hname, rfl⟩, hpresent, rfl⟩, hvolume, rfl⟩ := h
    rw [settles_name.required hname rfl, settles_bool.defaulted rfl hpresent rfl,
      (Volume.reading_settles.optional fun _ => nofun).defaulted rfl hvolume rfl]
    rfl
  · exact eq_of_agree h

theorem Pool.reading_settles : Settles reading dump := by
  refine Settles.record (fun _ => rfl) (by decide) fun m p h => ?_
  simp only [seq_eq_valid_iff, map_eq_valid_iff] at h
  obtain ⟨_, autostart, ⟨_, active, ⟨_, volumes, ⟨_, target, ⟨_, kind, ⟨_, identifier, ⟨name, hname, rfl⟩,
    hidentifier, rfl⟩, hkind, rfl⟩, htarget, rfl⟩, hvolumes, rfl⟩, hactive, rfl⟩, hautostart, rfl⟩ := h
  rw [settles_name.required hname rfl, settles_identifier.optionalWord.defaulted rfl hidentifier rfl,
    settles_text.defaulted rfl hkind rfl, settles_name.required htarget rfl,
    VolumeEntry.reading_settles.list.defaulted rfl hvolumes rfl, settles_bool.defaulted rfl hactive rfl,
    settles_bool.defaulted rfl hautostart rfl]
  rfl

/-! ### Domains -/

theorem Disk.reading_settles : Settles reading dump := by
  refine Settles.record (fun _ => rfl) (by decide) fun m k h => ?_
  simp only [seq_eq_valid_iff, map_eq_valid_iff] at h
  obtain ⟨_, format, ⟨_, bus, ⟨_, volume, ⟨pool, hpool, rfl⟩, hvolume, rfl⟩, hbus, rfl⟩, hformat, rfl⟩ := h
  rw [settles_name.required hpool rfl, settles_name.required hvolume rfl, settles_text.defaulted rfl hbus rfl,
    settles_text.defaulted rfl hformat rfl]
  rfl

/-- A hardware address that passes in small letters passes as it is. -/
theorem Interface.macReading_settles : Settles macReading .text := by
  intro d s h
  have haccepted := accepts_of_macReading h
  have htext : Reading.text (.text s) = .valid s := rfl
  rw [macReading, htext, andThen_valid]
  dsimp only
  rw [HardwareAddress.lower_eq_self haccepted, if_pos haccepted]

theorem Interface.reading_settles : Settles reading dump := by
  refine Settles.record (fun _ => rfl) (by decide) fun m i h => ?_
  simp only [seq_eq_valid_iff, map_eq_valid_iff] at h
  obtain ⟨_, address, ⟨_, mac, ⟨_, model, ⟨network, hnetwork, rfl⟩, hmodel, rfl⟩, hmac, rfl⟩, haddress, rfl⟩ := h
  rw [settles_name.required hnetwork rfl, settles_text.defaulted rfl hmodel rfl,
    macReading_settles.optionalText.defaulted rfl hmac rfl, settles_address.optionalWord.defaulted rfl haddress rfl]
  rfl

theorem Share.reading_settles : Settles reading dump := by
  refine Settles.record (fun _ => rfl) (by decide) fun m s h => ?_
  simp only [seq_eq_valid_iff, map_eq_valid_iff] at h
  obtain ⟨_, binary, ⟨_, tag, ⟨host, hhost, rfl⟩, htag, rfl⟩, hbinary, rfl⟩ := h
  rw [settles_name.required hhost rfl, settles_name.required htag rfl,
    settles_text.optionalText.defaulted rfl hbinary rfl]
  rfl

theorem Domain.flag_settles : Settles (Reading.optional Reading.bool) flag := by
  intro d o _
  cases o <;> rfl

theorem Domain.reading_settles : Settles reading dump := by
  refine Settles.record (fun _ => rfl) (by decide) fun m x h => ?_
  simp only [seq_eq_valid_iff, map_eq_valid_iff] at h
  obtain ⟨_, restart, ⟨_, active, ⟨_, nvram, ⟨_, media, ⟨_, shares, ⟨_, interfaces, ⟨_, disks, ⟨_, machine,
    ⟨_, tpm, ⟨_, firmware, ⟨_, vcpus, ⟨_, memory, ⟨_, identifier, ⟨name, hname, rfl⟩, hidentifier, rfl⟩, hmemory,
    rfl⟩, hvcpus, rfl⟩, hfirmware, rfl⟩, htpm, rfl⟩, hmachine, rfl⟩, hdisks, rfl⟩, hinterfaces, rfl⟩, hshares, rfl⟩,
    hmedia, rfl⟩, hnvram, rfl⟩, hactive, rfl⟩, hrestart, rfl⟩ := h
  have hmodes : Settles (among (Firmware.all.map fun f => (f.word, f))) fun f => .text f.word :=
    settles_among fun f _ => by cases f <;> rfl
  rw [settles_name.required hname rfl, settles_identifier.optionalWord.defaulted rfl hidentifier rfl,
    Quantity.reading_settles.required hmemory rfl, (settles_integerIn 1 256).defaulted rfl hvcpus rfl,
    hmodes.defaulted rfl hfirmware rfl, settles_bool.defaulted rfl htpm rfl, settles_text.defaulted rfl hmachine rfl,
    Disk.reading_settles.list.defaulted rfl hdisks rfl, Interface.reading_settles.list.defaulted rfl hinterfaces rfl,
    Share.reading_settles.list.defaulted rfl hshares rfl, settles_text.list.defaulted rfl hmedia rfl,
    settles_text.optionalText.defaulted rfl hnvram rfl, flag_settles.defaulted rfl hactive rfl,
    flag_settles.defaulted rfl hrestart rfl]
  rfl

/-! ### Desired states -/

/-- What is declared about a kind is read again, if the list of its resources is. -/
theorem Declared.reading_dump {α : Type} {resources : Reading (List α)} {item : α → Data} {x : Declared α}
    (h : resources (.list (x.items.map item)) = .valid x.items) :
    Declared.reading resources (x.dump item) = .valid x := by
  cases x with
  | unmanaged assumed =>
    let fields : List (String × Data) :=
      [("mode", .text "unmanaged"), ("assume_present", .list (assumed.map .text))]
    have hassumed : Reading.defaulted (entriesOf fields) "assume_present" [] (Reading.list Reading.text)
        = .valid assumed := defaulted_entriesOf rfl (list_map fun _ _ => rfl)
    show (Reading.sealed ["mode", "assume_present"] (entriesOf fields) (Declared.unmanaged
      <$> Reading.defaulted (entriesOf fields) "assume_present" [] (Reading.list Reading.text))).under _ = _
    rw [sealed_entriesOf (by rfl) (by decide), hassumed]
    rfl
  | managed items =>
    let fields : List (String × Data) := [("mode", .text "managed"), ("items", .list (items.map item))]
    have hitems : Reading.defaulted (entriesOf fields) "items" [] resources = .valid items :=
      defaulted_entriesOf rfl h
    show (Reading.sealed ["mode", "items"] (entriesOf fields) (Declared.managed
      <$> Reading.defaulted (entriesOf fields) "items" [] resources)).under _ = _
    rw [sealed_entriesOf (by rfl) (by decide), hitems]
    rfl

/-- A desired state is read again, if what it declares about each kind is. -/
theorem Desired.readingWith_dump {domains : Reading (List Domain)} {d : Desired}
    (hnetworks : Declared.reading (Reading.list Network.reading) (d.networks.dump Network.dump) = .valid d.networks)
    (hpools : Declared.reading (Reading.list Pool.reading) (d.pools.dump Pool.dump) = .valid d.pools)
    (hdomains : Declared.reading domains (d.domains.dump Domain.dump) = .valid d.domains) :
    Desired.readingWith domains d.dump = .valid d := by
  let m := entriesOf [("networks", d.networks.dump Network.dump), ("pools", d.pools.dump Pool.dump),
    ("domains", d.domains.dump Domain.dump)]
  show Reading.sealed ["networks", "pools", "domains"] m
    (Desired.mk
      <$> Reading.defaulted m "networks" (.unmanaged []) (Declared.reading (Reading.list Network.reading))
      <*> Reading.defaulted m "pools" (.unmanaged []) (Declared.reading (Reading.list Pool.reading))
      <*> Reading.defaulted m "domains" (.unmanaged []) (Declared.reading domains)) = _
  rw [sealed_entriesOf (by rfl) (by decide), defaulted_entriesOf rfl hnetworks, defaulted_entriesOf rfl hpools,
    defaulted_entriesOf rfl hdomains]
  rfl

/-- The resources of a kind that was read are read again. -/
theorem Declared.list_items {α : Type} {r : Reading α} {write : α → Data} (hr : Settles r write) {d : Data}
    {x : Declared α} (h : Declared.reading (Reading.list r) d = .valid x) :
    Reading.list r (.list (x.items.map write)) = .valid x.items :=
  list_map (Declared.forall_of_reading (fun _ _ has => forall_of_list hr has) h)

/-- **What a desired state declares was read**, or nothing is declared. -/
theorem Desired.items_of_reading {d : Desired} {v : Data} (h : Desired.reading v = .valid d) :
    Reading.list Network.reading (.list (d.networks.items.map Network.dump)) = .valid d.networks.items ∧
      Reading.list Pool.reading (.list (d.pools.items.map Pool.dump)) = .valid d.pools.items ∧
        Reading.list Domain.reading (.list (d.domains.items.map Domain.dump)) = .valid d.domains.items := by
  obtain ⟨m, hm⟩ := eq_valid_of_record h
  have hbody := eq_valid_of_sealed hm
  simp only [seq_eq_valid_iff, map_eq_valid_iff] at hbody
  obtain ⟨_, domains, ⟨_, pools, ⟨networks, hnetworks, rfl⟩, hpools, rfl⟩, hdomains, rfl⟩ := hbody
  have hkind : ∀ {α : Type} {r : Reading α} {write : α → Data} {key : String} {x : Declared α},
      Settles r write → Reading.defaulted m key (.unmanaged []) (Declared.reading (Reading.list r)) = .valid x →
        Reading.list r (.list (x.items.map write)) = .valid x.items := by
    intro α r write key x hr hx
    rcases eq_or_read_of_defaulted hx with rfl | ⟨v, hv⟩
    · rfl
    · exact Declared.list_items hr hv
  exact ⟨hkind Network.reading_settles hnetworks, hkind Pool.reading_settles hpools,
    hkind Domain.reading_settles hdomains⟩

/-! ### Loading -/

/-- The record of a domain names no profile. -/
theorem DomainItem.of_dump (s : GuestSettings) (x : Domain) : of s x.dump = .ok (.plain x.dump) := by
  rfl

theorem DomainItem.mapM_of_dump (s : GuestSettings) (xs : List Domain) :
    (xs.map Domain.dump).mapM (of s) = .ok (xs.map (.plain ·.dump)) := by
  induction xs with
  | nil => rfl
  | cons x xs ih => rw [List.map_cons, List.mapM_cons, of_dump, ih]; rfl

/-- Items that are left alone are read as the members of a list. -/
theorem DomainItem.readAll_plain (place : Nat) (ds : List Data) :
    readAll place (ds.map .plain) = Reading.items Domain.reading place ds := by
  induction ds generalizing place with
  | nil => rfl
  | cons d ds ih => rw [List.map_cons, readAll, Reading.items, ih]; rfl

/-- The items in the record of a desired state are left alone, so that their list is read as any other. -/
theorem Topology.items_dump (s : GuestSettings) (networks pools : Data) (x : Declared Domain) :
    ∃ items, (domainItems? (entriesOf [("networks", networks), ("pools", pools), ("domains", x.dump Domain.dump)])).mapM
        (·.mapM (DomainItem.of s)) = .ok items ∧
      domainsReading items (.list (x.items.map Domain.dump))
        = Reading.list Domain.reading (.list (x.items.map Domain.dump)) := by
  cases x with
  | unmanaged assumed => exact ⟨none, rfl, rfl⟩
  | managed xs =>
    refine ⟨some (xs.map (.plain ·.dump)), ?_, ?_⟩
    · show some <$> (xs.map Domain.dump).mapM (DomainItem.of s) = _
      rw [DomainItem.mapM_of_dump]
      rfl
    · show DomainItem.readAll 0 (xs.map (.plain ·.dump)) = Reading.items Domain.reading 0 (xs.map Domain.dump)
      rw [← DomainItem.readAll_plain, List.map_map]
      rfl

/-- **A desired state that was read is read again from its record**, and it is what loading the record gives. -/
theorem Desired.reload {v : Data} {d : Desired} (h : Desired.reading v = .valid d) :
    Desired.reading d.dump = .valid d ∧ ∀ s : GuestSettings, Topology.load s d.dump = .ok d := by
  obtain ⟨hnetworks, hpools, hdomains⟩ := items_of_reading h
  have hread : ∀ domains : Reading (List Domain),
      domains (.list (d.domains.items.map Domain.dump)) = .valid d.domains.items →
        Desired.readingWith domains d.dump = .valid d := fun domains hx =>
    readingWith_dump (Declared.reading_dump hnetworks) (Declared.reading_dump hpools) (Declared.reading_dump hx)
  refine ⟨hread _ hdomains, fun s => ?_⟩
  obtain ⟨items, hitems, hprepared⟩ :=
    Topology.items_dump s (d.networks.dump Network.dump) (d.pools.dump Pool.dump) d.domains
  have hload : Topology.load s d.dump = (do
      let items ← (Topology.domainItems? (entriesOf [("networks", d.networks.dump Network.dump),
        ("pools", d.pools.dump Pool.dump), ("domains", d.domains.dump Domain.dump)])).mapM
          (·.mapM (DomainItem.of s))
      ((Desired.readingWith (Topology.domainsReading items) d.dump).titled "DesiredState").mapError
        TopologyError.invalid) := rfl
  rw [hload, hitems]
  show ((Desired.readingWith (Topology.domainsReading items) d.dump).titled "DesiredState").mapError
    TopologyError.invalid = .ok d
  rw [hread _ (hprepared.trans hdomains)]
  rfl

/-- A desired state in few words: an address as its number, a size as a text, a truth value as a word. -/
def Desired.briefly : Data :=
  .record [
    ("networks", .record [("mode", .text "managed"), ("items", .list [
      .record [("name", .text "lab"), ("bridge", .text "virbr1"), ("gateway", .int 3232235777)]])]),
    ("domains", .record [("mode", .text "managed"), ("items", .list [
      .record [("name", .text "guest"), ("memory", .text "2 GiB"), ("tpm", .text "Yes"),
        ("interfaces", .list [.record [("network", .text "lab"), ("mac", .text "52:54:00:AA:BB:01")]])]])])]

/-- What it says. -/
def Desired.spelledOut : Desired where
  networks := .managed [{
    name := "lab"
    identifier := none
    forward := .nat
    bridge := "virbr1"
    gateway := .ofQuads 192 168 1 1
    netmask := Network.defaultNetmask
    dhcp := none
    active := true
    autostart := true }]
  pools := .unmanaged []
  domains := .managed [{
    name := "guest"
    memory := ⟨2, .GiB⟩
    tpm := true
    interfaces := [{ network := "lab", mac := some "52:54:00:aa:bb:01" }] }]

theorem Desired.reload_spelledOut : Desired.reading briefly = .valid spelledOut ∧
    Desired.reading spelledOut.dump = .valid spelledOut ∧
      ∀ s : GuestSettings, Topology.load s spelledOut.dump = .ok spelledOut := by
  have hread : Desired.reading briefly = .valid spelledOut := by rfl
  exact ⟨hread, reload hread⟩

end VirtualTopology
