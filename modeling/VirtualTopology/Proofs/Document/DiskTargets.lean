import Mathlib.Logic.Function.Iterate
import VirtualTopology.Proofs.Document.Faithful

/-!
# The devices of disks

A disk is seen in its guest as a device with a name: letters for its bus, and a suffix that counts the disks with these
letters. Disks and install media on buses with the same letters are counted together. The main result,
`Domain.disks_named_in_order`, says that in the document of a domain, and in what is read of its text, no two disks have the
same device, and that those with the same letters are `a`, `b`, …, `z`, `aa`, `ab`, … in the order of the document
(`Element.NamesDisksInOrder`).

Two things are known of the suffix `deviceSuffix`. It counts down: in each round the last letter of what is left goes in
front of the letters that are known, until nothing is left (`deviceSuffix_eq_countDown`). And it counts up: the next suffix
has its last letter raised, and behind `z` that letter is `a` again and the one before it is raised
(`deviceSuffix_eq_nthSuffix`). The order `a`, …, `z`, `aa`, … is defined by the second rule, without arithmetic.
-/

namespace VirtualTopology

open Document Element

/-! ### Suffixes -/

/-- One round of counting down: what is left, and the letters that are known. -/
def countDown : Nat × List Char → Nat × List Char
  | (0, letters) => (0, letters)
  | (left + 1, letters) => (left / 26, Char.ofNat (97 + left % 26) :: letters)

/-- The next suffix, with the last letter in front. -/
def nextSuffix : List Char → List Char
  | [] => ['a']
  | c :: cs => if c = 'z' then 'a' :: nextSuffix cs else Char.ofNat (c.toNat + 1) :: cs

/-- The suffixes `a`, `b`, …, `z`, `aa`, `ab`, … by their places. -/
def nthSuffix (n : Nat) : List Char := (nextSuffix^[n + 1] []).reverse

example : [0, 25, 26, 701, 702].map nthSuffix = [['a'], ['z'], ['a', 'a'], ['z', 'z'], ['a', 'a', 'a']] := by
  decide +kernel

/-- Counting down from any letters that are known already takes one round for each letter of the suffix. -/
theorem iterate_countDown (n : Nat) (letters : List Char) :
    countDown^[(deviceSuffix n).length] (n + 1, letters) = (0, deviceSuffix n ++ letters) := by
  -- the letters that are known grow from round to round, so the induction is for any of them
  fun_induction deviceSuffix n generalizing letters with
  | case1 n letter hsmall =>
    have hnone : n / 26 = 0 := Nat.div_eq_of_lt hsmall
    simp [countDown, hnone, letter]
  | case2 n letter hlarge ih =>
    have hleft : n / 26 = n / 26 - 1 + 1 := by omega
    rw [List.length_append, List.length_singleton, Function.iterate_succ_apply]
    show countDown^[_] (n / 26, letter :: letters) = _
    rw [hleft, Nat.add_sub_cancel, ih]
    simp

/-- **Counting down ends**, and what is known then is the suffix. -/
theorem deviceSuffix_eq_countDown (n : Nat) : ∃ rounds, countDown^[rounds] (n + 1, []) = (0, deviceSuffix n) :=
  ⟨_, by rw [iterate_countDown, List.append_nil]⟩

theorem reverse_deviceSuffix (n : Nat) : (deviceSuffix n).reverse =
    Char.ofNat (97 + n % 26) :: if n < 26 then [] else (deviceSuffix (n / 26 - 1)).reverse := by
  rw [deviceSuffix]
  split <;> simp

theorem toNat_letter {k : Nat} (h : k < 26) : (Char.ofNat (97 + k)).toNat = 97 + k :=
  Text.toNat_ofNat_of_isValidChar (.inl (by omega))

theorem letter_inj {k l : Nat} (hk : k < 26) (hl : l < 26) :
    Char.ofNat (97 + k) = Char.ofNat (97 + l) ↔ k = l := by
  constructor
  · intro h
    have hcode := congrArg Char.toNat h
    rw [toNat_letter hk, toNat_letter hl] at hcode
    omega
  · rintro rfl
    rfl

/-- **The suffix of the next number is the next suffix.** -/
theorem nextSuffix_deviceSuffix (n : Nat) :
    nextSuffix (deviceSuffix n).reverse = (deviceSuffix (n + 1)).reverse := by
  induction n using Nat.strong_induction_on with
  | _ n ih =>
    have hbound : n % 26 < 26 := Nat.mod_lt _ (by decide)
    rw [reverse_deviceSuffix n, reverse_deviceSuffix (n + 1), nextSuffix]
    by_cases hlast : n % 26 = 25
    · -- the last letter starts over
      have hnext : (n + 1) % 26 = 0 := by omega
      rw [hlast, if_pos rfl, hnext]
      congr 1
      by_cases hsmall : n < 26
      · obtain rfl : n = 25 := by omega
        rw [if_pos hsmall, if_neg (by omega), reverse_deviceSuffix]
        rfl
      · have hquotient : (n + 1) / 26 - 1 = n / 26 - 1 + 1 := by omega
        rw [if_neg hsmall, if_neg (by omega), hquotient, ih _ (by omega)]
    · have hnext : (n + 1) % 26 = n % 26 + 1 := by omega
      have hquotient : (n + 1) / 26 = n / 26 := by omega
      have hsize : n + 1 < 26 ↔ n < 26 := by omega
      have hletter : Char.ofNat (97 + n % 26) ≠ 'z' := mt (letter_inj hbound (l := 25) (by decide)).1 hlast
      rw [if_neg hletter, toNat_letter hbound, hnext, hquotient, Nat.add_assoc]
      simp only [hsize]

/-- **The suffix of a number is the one at its place.** -/
theorem deviceSuffix_eq_nthSuffix (n : Nat) : deviceSuffix n = nthSuffix n := by
  have hreverse : (deviceSuffix n).reverse = nextSuffix^[n + 1] [] := by
    induction n with
    | zero => rw [reverse_deviceSuffix]; rfl
    | succ n ih => rw [Function.iterate_succ_apply', ← ih, nextSuffix_deviceSuffix]
  rw [nthSuffix, ← hreverse, List.reverse_reverse]

/-- **Different numbers have different suffixes.** -/
theorem deviceSuffix_injective : Function.Injective deviceSuffix := by
  intro m n h
  induction m using Nat.strong_induction_on generalizing n with
  | _ m ih =>
    have hreverse := congrArg List.reverse h
    rw [reverse_deviceSuffix m, reverse_deviceSuffix n, List.cons.injEq] at hreverse
    obtain ⟨hletter, hrest⟩ := hreverse
    have hlast := (letter_inj (Nat.mod_lt m (by decide)) (Nat.mod_lt n (by decide))).1 hletter
    have hne : ∀ k, (deviceSuffix k).reverse ≠ [] := fun k => by simp [reverse_deviceSuffix k]
    split at hrest <;> split at hrest
    · omega
    · exact absurd hrest.symm (hne _)
    · exact absurd hrest (hne _)
    · -- the last letters agree, and so do the suffixes in front of them
      have hquotient := ih (m / 26 - 1) (by omega) (List.reverse_injective hrest)
      omega

/-! ### Names of devices -/

/-- The letters that the name of a device may begin with. -/
def deviceLetters : List String := ["vd", "sd", "hd"]

/-- Whether the name of a device begins with some letters. -/
def BeginsWith (letters device : String) : Prop := letters.toList <+: device.toList

instance (letters device : String) : Decidable (BeginsWith letters device) :=
  inferInstanceAs (Decidable (_ <+: _))

/-- The device with some letters at a place. -/
def deviceAt (letters : String) (n : Nat) : String := letters ++ String.ofList (nthSuffix n)

theorem devicePrefix_mem (bus : String) : devicePrefix bus ∈ deviceLetters := by
  unfold devicePrefix
  split
  · decide
  · split <;> decide

theorem beginsWith_deviceAt (letters : String) (n : Nat) : BeginsWith letters (deviceAt letters n) := by
  simp [BeginsWith, deviceAt]

/-- The letters of a device are told from its name, as they are all two. -/
theorem beginsWith_deviceAt_iff {letters letters' : String} (h : letters ∈ deviceLetters)
    (h' : letters' ∈ deviceLetters) (n : Nat) : BeginsWith letters (deviceAt letters' n) ↔ letters = letters' := by
  have hlength : ∀ l ∈ deviceLetters, l.toList.length = 2 := by decide
  constructor
  · intro hprefix
    rw [BeginsWith, deviceAt, String.toList_append] at hprefix
    have heq := (List.prefix_iff_eq_take.1 hprefix).trans (List.take_left' (by rw [hlength _ h, hlength _ h']))
    exact String.toList_injective heq
  · rintro rfl
    exact beginsWith_deviceAt _ n

/-- **Devices with the same letters are counted**: of several buses, those with some letters have the next places in their
order. -/
theorem filter_deviceNamesFrom {letters : String} (h : letters ∈ deviceLetters) (before buses : List String) :
    (deviceNamesFrom before buses).filter (BeginsWith letters ·) =
      (List.range' (before.count letters) (buses.countP (devicePrefix · == letters))).map (deviceAt letters) := by
  induction buses generalizing before with
  | nil => rfl
  | cons bus buses ih =>
    have hname : devicePrefix bus ++ String.ofList (deviceSuffix (before.count (devicePrefix bus))) =
        deviceAt (devicePrefix bus) (before.count (devicePrefix bus)) := by
      rw [deviceAt, deviceSuffix_eq_nthSuffix]
    rw [deviceNamesFrom, hname, List.filter_cons, ih, List.countP_cons, List.count_append]
    -- a bus with these letters takes the next place, and any other leaves the count alone
    by_cases hbus : letters = devicePrefix bus
    · subst hbus
      simp [beginsWith_deviceAt, List.range'_succ]
    · have hother := mt (beginsWith_deviceAt_iff h (devicePrefix_mem bus) (before.count (devicePrefix bus))).1 hbus
      simp [hother, Ne.symm hbus]

/-- The names of devices begin with the letters of their buses. -/
theorem forall₂_deviceNamesFrom (before buses : List String) :
    List.Forall₂ (fun bus device => BeginsWith (devicePrefix bus) device) buses (deviceNamesFrom before buses) := by
  induction buses generalizing before with
  | nil => exact .nil
  | cons bus buses ih => exact .cons (by simp [BeginsWith]) (ih _)

theorem exists_of_mem_deviceNamesFrom {before buses : List String} {device : String}
    (h : device ∈ deviceNamesFrom before buses) : ∃ bus n, device = deviceAt (devicePrefix bus) n := by
  induction buses generalizing before with
  | nil => simp [deviceNamesFrom] at h
  | cons bus buses ih =>
    rcases List.mem_cons.1 h with rfl | h
    · exact ⟨bus, before.count (devicePrefix bus), by rw [deviceAt, deviceSuffix_eq_nthSuffix]⟩
    · exact ih h

/-- The name of a device is visible. -/
theorem isVisible_deviceAt {letters : String} (h : letters ∈ deviceLetters) (n : Nat) :
    ∀ c ∈ (deviceAt letters n).toList, Text.isVisible c = true := by
  have hletters : ∀ letters ∈ deviceLetters, ∀ c ∈ letters.toList, Text.isVisible c = true := by decide
  rw [deviceAt, ← deviceSuffix_eq_nthSuffix, String.toList_append, String.toList_ofList, List.forall_mem_append]
  exact ⟨hletters _ h, isVisible_deviceSuffix n⟩

theorem deviceAt_injective (letters : String) : Function.Injective (deviceAt letters) := by
  intro m n h
  refine deviceSuffix_injective ?_
  rw [deviceAt, deviceAt, ← deviceSuffix_eq_nthSuffix, ← deviceSuffix_eq_nthSuffix, ← String.toList_inj] at h
  simpa using h

/-! ### Documents -/

namespace Element

/-- The devices of the disks in the document of a domain, in its order. -/
def diskTargets (domain : Element) : List String :=
  (domain.descend ["devices", "disk", "target"]).filterMap (·.attribute? "dev")

/-- Whether the disks in the document of a domain have devices that are named in order. -/
structure NamesDisksInOrder (domain : Element) : Prop where
  /-- Each disk has one target, which names a device. -/
  named : ∀ disk ∈ domain.descend ["devices", "disk"], ∃ target device, disk.all "target" = [target] ∧
    target.attribute? "dev" = some device
  lettered : ∀ device ∈ domain.diskTargets, ∃ letters ∈ deviceLetters, BeginsWith letters device
  distinct : domain.diskTargets.Nodup
  /-- The devices with the same letters are the first ones with these letters, and stand in their order. -/
  counted : ∀ letters ∈ deviceLetters, ∃ n,
    domain.diskTargets.filter (BeginsWith letters ·) = (List.range n).map (deviceAt letters)

/-- Devices that are counted are distinct. -/
theorem nodup_of_counted {devices : List String}
    (hlettered : ∀ device ∈ devices, ∃ letters ∈ deviceLetters, BeginsWith letters device)
    (hcounted : ∀ letters ∈ deviceLetters, ∃ n,
      devices.filter (BeginsWith letters ·) = (List.range n).map (deviceAt letters)) : devices.Nodup := by
  refine List.nodup_iff_count_le_one.2 fun device => ?_
  -- a device that stood there twice would do so among those with its own letters
  by_cases hmem : device ∈ devices
  · obtain ⟨letters, hletters, hbegins⟩ := hlettered device hmem
    obtain ⟨n, hn⟩ := hcounted letters hletters
    have hnodup : (devices.filter (BeginsWith letters ·)).Nodup :=
      hn ▸ List.nodup_range.map (deviceAt_injective letters)
    rw [← List.count_filter (p := (BeginsWith letters ·)) (by simpa using hbegins)]
    exact List.nodup_iff_count_le_one.1 hnodup device
  · rw [List.count_eq_zero.2 hmem]
    exact Nat.zero_le 1

end Element

namespace Domain

variable (d : Domain)

theorem descend_disks : d.document.descend ["devices", "disk"] = d.driveElements := by
  rw [descend_devices, descend, all_devices]
  cases d.tpm <;> simp [descend, branch, Element.empty]

/-- What a drive is attached to, under a device name. -/
def driveTarget : Disk ⊕ String → String → Element
  | .inl k, device => Element.empty "target" [("dev", device), ("bus", k.bus)]
  | .inr _, device => Element.empty "target" [("dev", device), ("bus", mediaBus)]

theorem all_target_driveElement (x : Disk ⊕ String) (device : String) :
    (driveElement x device).all "target" = [driveTarget x device] := by
  cases x <;> rfl

theorem attribute?_driveTarget (x : Disk ⊕ String) (device : String) :
    (driveTarget x device).attribute? "dev" = some device := by
  cases x <;> rfl

theorem driveElements_eq_map :
    d.driveElements = (d.drives.zip (deviceNames d.buses)).map fun x => driveElement x.1 x.2 := by
  rw [driveElements_eq, List.map_zip_eq_zipWith]
  rfl

/-- **The devices in the document of a domain** are those of its buses. -/
theorem diskTargets_document : d.document.diskTargets = deviceNames d.buses := by
  have htargets : d.document.descend (["devices", "disk"] ++ ["target"]) =
      (d.drives.zip (deviceNames d.buses)).map fun x => driveTarget x.1 x.2 := by
    rw [descend_concat, descend_disks, driveElements_eq_map, List.flatMap_map, ← List.flatMap_singleton' (List.map _ _),
      List.flatMap_map]
    exact List.flatMap_congr fun x _ => all_target_driveElement x.1 x.2
  calc d.document.diskTargets
    _ = (d.drives.zip (deviceNames d.buses)).filterMap fun x => some x.2 := by
      rw [diskTargets, show ["devices", "disk", "target"] = ["devices", "disk"] ++ ["target"] from rfl, htargets,
        List.filterMap_map]
      exact List.filterMap_congr fun x _ => attribute?_driveTarget x.1 x.2
    _ = (d.drives.zip (deviceNames d.buses)).map Prod.snd := congrFun List.filterMap_eq_map _
    _ = deviceNames d.buses := List.map_snd_zip d.length_drives.ge

theorem exists_of_mem_diskTargets {device : String} (h : device ∈ d.document.diskTargets) :
    ∃ letters ∈ deviceLetters, ∃ n, device = deviceAt letters n := by
  rw [diskTargets_document] at h
  obtain ⟨bus, n, rfl⟩ := exists_of_mem_deviceNamesFrom h
  exact ⟨_, devicePrefix_mem bus, n, rfl⟩

/-- **The document of a domain names its disks in order.** -/
theorem namesDisksInOrder_document : d.document.NamesDisksInOrder := by
  have hlettered : ∀ device ∈ d.document.diskTargets, ∃ letters ∈ deviceLetters, BeginsWith letters device := by
    intro device hdevice
    obtain ⟨letters, hletters, n, rfl⟩ := d.exists_of_mem_diskTargets hdevice
    exact ⟨letters, hletters, beginsWith_deviceAt letters n⟩
  have hcounted : ∀ letters ∈ deviceLetters, ∃ n,
      d.document.diskTargets.filter (BeginsWith letters ·) = (List.range n).map (deviceAt letters) := fun letters h =>
    ⟨_, by rw [diskTargets_document, deviceNames, filter_deviceNamesFrom h, List.count_nil, List.range_eq_range']⟩
  refine ⟨fun disk hdisk => ?_, hlettered, nodup_of_counted hlettered hcounted, hcounted⟩
  rw [descend_disks, driveElements_eq_map] at hdisk
  obtain ⟨x, -, rfl⟩ := List.mem_map.1 hdisk
  exact ⟨_, x.2, all_target_driveElement x.1 x.2, attribute?_driveTarget x.1 x.2⟩

/-! ### Documents that are read -/

theorem diskTargets_asRead : (d.document.asRead 0).diskTargets = d.document.diskTargets := by
  -- reading settles blanks in values, and the name of a device has none
  have hshown : ∀ device ∈ d.document.diskTargets, shown device = device := by
    intro device hdevice
    obtain ⟨letters, hletters, n, rfl⟩ := d.exists_of_mem_diskTargets hdevice
    exact shown_eq_self (Text.onOneLine_of_isVisible (isVisible_deviceAt hletters n))
  calc (d.document.asRead 0).diskTargets
    _ = d.document.diskTargets.map shown := values_asRead 0 d.document ["devices", "disk", "target"] "dev"
    _ = d.document.diskTargets := (List.map_congr_left hshown).trans (List.map_id _)

/-- **So does what is read of its text.** -/
theorem namesDisksInOrder_asRead : (d.document.asRead 0).NamesDisksInOrder := by
  obtain ⟨hnamed, hlettered, hdistinct, hcounted⟩ := d.namesDisksInOrder_document
  rw [← diskTargets_asRead] at hlettered hdistinct hcounted
  refine ⟨fun disk hdisk => ?_, hlettered, hdistinct, hcounted⟩
  rw [keepsShape_asRead.descend_eq] at hdisk
  obtain ⟨e, he, rfl⟩ := List.mem_map.1 hdisk
  obtain ⟨target, device, htarget, hdevice⟩ := hnamed e he
  refine ⟨_, shown device, (keepsShape_asRead.all_eq _ e "target").trans (congrArg _ htarget), ?_⟩
  rw [attribute?_asRead, hdevice, Option.map_some]

/-- **Disks are named in order.** For every domain, with any number of disks on any buses and any number of install media:
in its document, and in what is read of the text of the document, each disk has one device, with the letters of its bus; no
two have the same device; and those with the same letters are `a`, `b`, …, `z`, `aa`, `ab`, … in the order of the document,
without a gap. The suffix of each number is found by counting down, which ends, and different numbers have different
suffixes. -/
theorem disks_named_in_order :
    d.document.NamesDisksInOrder ∧
    List.Forall₂ (fun bus device => BeginsWith (devicePrefix bus) device) d.buses d.document.diskTargets ∧
    (∀ text, d.written = .ok text → ∃ e, Element.read? text = some e ∧
      e.NamesDisksInOrder ∧ e.diskTargets = d.document.diskTargets) ∧
    (∀ n, ∃ rounds, countDown^[rounds] (n + 1, []) = (0, deviceSuffix n)) ∧
    Function.Injective deviceSuffix := by
  refine ⟨d.namesDisksInOrder_document, ?_, fun text htext => ?_, deviceSuffix_eq_countDown, deviceSuffix_injective⟩
  · rw [diskTargets_document]
    exact forall₂_deviceNamesFrom [] d.buses
  · have hread := (Declaration.domain d).orderly.framed.read?_render (Declaration.render_eq_of_written (s := .domain d) htext)
    exact ⟨_, hread, d.namesDisksInOrder_asRead, d.diskTargets_asRead⟩

/-- A domain with disks on four buses, one of them not known, and with an install medium. -/
def manyDisks : Domain where
  name := "vm"
  identifier := some ⟨1⟩
  memory := ⟨1, .GiB⟩
  disks := [
    { pool := "images", volume := "a", bus := "scsi" }, { pool := "images", volume := "b", bus := "virtio" },
    { pool := "images", volume := "c", bus := "nvme" }, { pool := "images", volume := "d", bus := "ide" }]
  installMedia := ["/iso/install.iso"]

/-- Its disks as they are read. -/
theorem disks_named_in_order_manyDisks : ∃ text, manyDisks.written = .ok text ∧ ∃ e, Element.read? text = some e ∧
    e.NamesDisksInOrder ∧ e.diskTargets = ["sda", "vda", "sdb", "hda", "sdc"] := by
  have hwritten : manyDisks.written = .ok manyDisks.document.print := by
    rw [written_eq (by decide), if_pos (Text.isWritable_of_lt (by decide))]
  obtain ⟨e, he, hnames, htargets⟩ := manyDisks.disks_named_in_order.2.2.1 _ hwritten
  refine ⟨_, hwritten, e, he, hnames, ?_⟩
  rw [htargets, diskTargets_document]
  simp [deviceNames, deviceNamesFrom, buses, manyDisks, devicePrefix, deviceSuffix, mediaBus]

end Domain

end VirtualTopology
