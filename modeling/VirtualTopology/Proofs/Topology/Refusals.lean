import VirtualTopology.Proofs.Topology.DomainItems

/-!
# Topologies that are refused

Most errors of loading say what is wrong with the topology as it is written (`TopologyError.IsConfiguration`), and they
have a line to be shown. The others lie deeper: the text of a file has a flaw that is found below its form, or an item
stumbles over its profile (`DomainItem.Stumbles`): the profile is a list or a mapping, or it cannot be shown, or the
settings do not fit into any domain (`GuestSettings.FitsGuests`).

Loading structured data ends with an error of the second sort if and only if an item stumbles and all items before it have
been prepared (`Topology.load_stumbles_iff`).
-/

namespace VirtualTopology

open Reading

/-- A list is gone through up to the first member with an error, which is the error of the whole. -/
theorem Except.mapM_eq_error_iff {ε α β : Type} {f : α → Except ε β} {xs : List α} {e : ε} :
    xs.mapM f = .error e ↔
      ∃ before x behind, xs = before ++ x :: behind ∧ (∀ b ∈ before, ∃ y, f b = .ok y) ∧ f x = .error e := by
  -- the first member has the error, or it lies behind that
  induction xs with
  | nil => simp [pure, Except.pure]
  | cons x xs ih =>
    rw [List.mapM_cons]
    cases hx : f x with
    | error e' =>
      have hstop : ((Except.error e' : Except ε β) >>= fun y => do return y :: (← xs.mapM f)) = .error e ↔
          (Except.error e' : Except ε β) = .error e := by simp [bind, Except.bind]
      rw [hstop]
      constructor
      · intro h
        exact ⟨[], x, xs, rfl, by simp, hx.trans h⟩
      · rintro ⟨_ | ⟨b, before⟩, y, behind, hxs, hbefore, hy⟩
        · obtain ⟨rfl, -⟩ := List.cons.inj hxs
          exact hx.symm.trans hy
        · obtain ⟨rfl, -⟩ := List.cons.inj hxs
          obtain ⟨z, hz⟩ := hbefore x List.mem_cons_self
          exact nomatch hx.symm.trans hz
    | ok z =>
      have hrest : ((Except.ok z : Except ε β) >>= fun y => do return y :: (← xs.mapM f)) = .error e ↔
          xs.mapM f = .error e := by
        cases xs.mapM f <;> simp [bind, Except.bind, pure, Except.pure]
      rw [hrest, ih]
      constructor
      · rintro ⟨before, y, behind, rfl, hbefore, hy⟩
        exact ⟨x :: before, y, behind, rfl, List.forall_mem_cons.2 ⟨⟨z, hx⟩, hbefore⟩, hy⟩
      · rintro ⟨_ | ⟨b, before⟩, y, behind, hxs, hbefore, hy⟩
        · obtain ⟨rfl, -⟩ := List.cons.inj hxs
          exact nomatch hx.symm.trans hy
        · obtain ⟨rfl, rfl⟩ := List.cons.inj hxs
          exact ⟨before, y, behind, rfl, fun c hc => hbefore c (List.mem_cons_of_mem _ hc), hy⟩

namespace TopologyError

/-- Whether an error says what is wrong with the topology as it is written. -/
def IsConfiguration : TopologyError → Prop
  | missingFile _ | malformed _ | notMapping | invalidParameters .. | expansion (.unknownProfile ..) | invalid _ => True
  | flawed _ | expansion .notAName | expansion .unwritable | expansion (.rejected _) => False

/-- These are the errors with a line. -/
theorem isConfiguration_iff (e : TopologyError) : e.IsConfiguration ↔ ∃ message, e.message? = some message := by
  cases e with
  | expansion e => cases e <;> simp [IsConfiguration, message?]
  | _ => simp [IsConfiguration, message?]

end TopologyError

/-! ### Settings that fit into domains -/

theorem Checked.titled_eq_ok_iff {α : Type} {x : Checked α} {title : String} {a : α} :
    x.titled title = .ok a ↔ x = .valid a := by
  cases x <;> simp [titled]

/-- Whether a text is a name: it has a character, and no half of a pair. -/
def Reading.IsName (t : String) : Prop := t ≠ "" ∧ Text.holdsHalf t = false

theorem Reading.name_text_iff {t u : String} : name (.text t) = .valid u ↔ IsName t ∧ u = t := by
  constructor
  · intro h
    have hchars : characters .notText .notCharacters (.text t) = .valid u := by
      obtain ⟨v, hv, hname⟩ := Checked.andThen_eq_valid_iff.1 (show (characters _ _ (.text t)).andThen _ = _ from h)
      split at hname
      · exact nomatch hname
      · exact hv.trans hname
    have hwhole := whole_of_name h
    unfold characters at hchars
    dsimp only at hchars
    split at hchars
    · exact nomatch hchars
    · obtain rfl := Checked.valid.inj hchars
      exact ⟨hwhole, rfl⟩
  · rintro ⟨⟨hne, hhalf⟩, rfl⟩
    simp [name, characters, hhalf, hne]

/-- Parameters that are read have a volume with a name. -/
theorem GuestParameters.isName_volume {d : Data} {g : GuestParameters} (h : GuestParameters.reading d = .valid g) :
    IsName g.volume := by
  obtain ⟨m, -, hm⟩ := record_eq_valid_iff.1 h
  have hbody := eq_valid_of_sealed hm
  simp only [Checked.seq_eq_valid_iff, Checked.map_eq_valid_iff] at hbody
  obtain ⟨_, _, ⟨_, _, ⟨_, _, ⟨_, _, ⟨_, _, ⟨_, _, ⟨_, _, ⟨_, _, ⟨_, volume, ⟨_, _, rfl⟩, hvolume, rfl⟩, -, rfl⟩, -, rfl⟩,
    -, rfl⟩, -, rfl⟩, -, rfl⟩, -, rfl⟩, -, rfl⟩, -, rfl⟩ := hbody
  obtain ⟨_, hname⟩ := read_of_required hvolume
  exact whole_of_name hname

namespace GuestSettings

variable {s : GuestSettings} {p : Profile} {g : GuestParameters} {profile : Data}

/-- Whether domains can be made with some settings: what they name can be the network of an interface and the pool of a
disk. -/
structure FitsGuests (s : GuestSettings) : Prop where
  labNetwork : IsName s.labNetwork
  pool : IsName s.pool

theorem firstInterface_isOk_iff : (∃ i, s.firstInterface g = .ok i) ↔ IsName s.labNetwork := by
  let m := entriesOf [("network", .text s.labNetwork), ("model", .text s.nicModel),
    ("static_address", .text? (g.staticAddress.map (·.text)))]
  have hadmits : Admits ["network", "model", "mac", "static_address"] m := by
    simp [Admits, m, entriesOf, isBrokenKey]
    decide
  have hnetwork {n : String} : required m "network" name = .valid n ↔ IsName s.labNetwork ∧ n = s.labNetwork :=
    Checked.under_eq_valid_iff.trans name_text_iff
  have haddress : Reading.optional Reading.address (.text? (g.staticAddress.map (·.text))) = .valid g.staticAddress := by
    cases g.staticAddress with
    | none => rfl
    | some a => simp [Data.text?, Reading.optional, Reading.address, Address.ofText?_text]
  -- of the four fields, only the network can be refused
  simp only [firstInterface, Checked.titled_eq_ok_iff]
  show (∃ i, Reading.sealed ["network", "model", "mac", "static_address"] m (Interface.mk <$> required m "network" name
    <*> defaulted m "model" "virtio" text <*> defaulted m "mac" none (Reading.optional Interface.macReading)
    <*> defaulted m "static_address" none (Reading.optional Reading.address)) = .valid i) ↔ _
  have hmodel : defaulted m "model" "virtio" text = .valid s.nicModel := rfl
  have hmac : defaulted m "mac" none (Reading.optional Interface.macReading) = .valid none := rfl
  rw [hmodel, hmac, defaulted_entriesOf (by rfl) haddress]
  simp only [sealed_eq_valid_iff, Checked.seq_eq_valid_iff, Checked.map_eq_valid_iff, hnetwork]
  constructor
  · rintro ⟨_, -, _, _, ⟨_, _, ⟨_, _, ⟨_, ⟨hname, rfl⟩, rfl⟩, ⟨⟩, rfl⟩, ⟨⟩, rfl⟩, ⟨⟩, rfl⟩
    exact hname
  · exact fun hname => ⟨_, hadmits, _, _, ⟨_, _, ⟨_, _, ⟨_, ⟨hname, rfl⟩, rfl⟩, rfl, rfl⟩, rfl, rfl⟩, rfl, rfl⟩

theorem firstDisk_isOk_iff (hvolume : IsName g.volume) : (∃ d, s.firstDisk g = .ok d) ↔ IsName s.pool := by
  let m := entriesOf [("pool", .text s.pool), ("volume", .text g.volume), ("bus", .text s.diskBus)]
  have hadmits : Admits ["pool", "volume", "bus", "format"] m := by
    simp [Admits, m, entriesOf, isBrokenKey]
    decide
  have hpool {n : String} : required m "pool" name = .valid n ↔ IsName s.pool ∧ n = s.pool :=
    Checked.under_eq_valid_iff.trans name_text_iff
  have hname : required m "volume" name = .valid g.volume :=
    required_entriesOf (by rfl) (name_text_iff.2 ⟨hvolume, rfl⟩)
  simp only [firstDisk, Checked.titled_eq_ok_iff]
  show (∃ d, Reading.sealed ["pool", "volume", "bus", "format"] m (Disk.mk <$> required m "pool" name
    <*> required m "volume" name <*> defaulted m "bus" "sata" text <*> defaulted m "format" "qcow2" text) = .valid d) ↔ _
  have hbus : defaulted m "bus" "sata" text = .valid s.diskBus := rfl
  have hformat : defaulted m "format" "qcow2" text = .valid "qcow2" := rfl
  rw [hname, hbus, hformat]
  simp only [sealed_eq_valid_iff, Checked.seq_eq_valid_iff, Checked.map_eq_valid_iff, hpool]
  constructor
  · rintro ⟨_, -, _, _, ⟨_, _, ⟨_, _, ⟨_, ⟨hname, rfl⟩, rfl⟩, ⟨⟩, rfl⟩, ⟨⟩, rfl⟩, ⟨⟩, rfl⟩
    exact hname
  · exact fun hname => ⟨_, hadmits, _, _, ⟨_, _, ⟨_, _, ⟨_, ⟨hname, rfl⟩, rfl⟩, rfl, rfl⟩, rfl, rfl⟩, rfl, rfl⟩

/-- **Profiles are expanded with settings that fit**, and with no others. -/
theorem guest_isOk_iff (hvolume : IsName g.volume) : (∃ x, s.guest p g = .ok x) ↔ s.FitsGuests := by
  have hguest : (∃ x, s.guest p g = .ok x) ↔ (∃ i, s.firstInterface g = .ok i) ∧ ∃ d, s.firstDisk g = .ok d := by
    unfold guest
    cases s.firstInterface g <;> cases s.firstDisk g <;> simp [bind, Except.bind, pure, Except.pure]
  rw [hguest, firstInterface_isOk_iff, firstDisk_isOk_iff hvolume]
  exact ⟨fun h => ⟨h.1, h.2⟩, fun h => ⟨h.1, h.2⟩⟩

/-- A profile whose error lies deeper has parts, or is a number that cannot be shown. -/
theorem profile?_eq_error_iff {e : ExpansionError} :
    s.profile? profile = .error e ∧ ¬ (TopologyError.expansion e).IsConfiguration ↔
      (∀ v, profile ≠ .scalar v) ∧ e = .notAName ∨ ∃ v, profile = .scalar v ∧ v.isWritable = false ∧ e = .unwritable := by
  -- a profile with parts is no name; of the others only numbers may have no text
  have hcomposite (h : ∀ v, profile ≠ .scalar v) (hprofile : s.profile? profile = .error .notAName) :
      (s.profile? profile = .error e ∧ ¬ (TopologyError.expansion e).IsConfiguration ↔
        (∀ v, profile ≠ .scalar v) ∧ e = .notAName ∨ ∃ v, profile = .scalar v ∧ v.isWritable = false ∧ e = .unwritable) := by
    rw [hprofile, Except.error.injEq]
    constructor
    · rintro ⟨rfl, -⟩
      exact .inl ⟨h, rfl⟩
    · rintro (⟨-, rfl⟩ | ⟨v, hv, -⟩)
      · exact ⟨rfl, id⟩
      · exact absurd hv (h v)
  have hscalar (v : Scalar) : (((if v.isWritable then some v.display else none).elim .unwritable
      (.unknownProfile · s.profileNames) = e) ∧ ¬ (TopologyError.expansion e).IsConfiguration) ↔
        v.isWritable = false ∧ e = .unwritable := by
    cases v.isWritable with
    | false =>
      constructor
      · rintro ⟨rfl, -⟩
        exact ⟨rfl, rfl⟩
      · rintro ⟨-, rfl⟩
        exact ⟨rfl, id⟩
    | true =>
      constructor
      · rintro ⟨rfl, hdeep⟩
        exact absurd trivial hdeep
      · exact fun h => nomatch h.1
  cases profile with
  | scalar v =>
    have hright : (∀ w, Data.scalar v ≠ .scalar w) ∧ e = .notAName ∨
        (∃ w, Data.scalar v = .scalar w ∧ w.isWritable = false ∧ e = .unwritable) ↔ v.isWritable = false ∧ e = .unwritable := by
      simp
    rw [hright]
    cases v with
    | text t =>
      cases hlookup : s.profiles.lookup t with
      | none => simpa [profile?, hlookup, Data.display?] using hscalar (.text t)
      | some p => simp [profile?, hlookup, Scalar.isWritable]
    | _ => simpa [profile?, Data.display?] using hscalar _
  | _ => exact hcomposite (by simp) rfl

theorem profile?_eq_ok_iff : s.profile? profile = .ok p ↔ ∃ t, profile = .text t ∧ s.profiles.lookup t = some p := by
  cases profile with
  | scalar v =>
    cases v with
    | text t => cases hlookup : s.profiles.lookup t <;> simp [profile?, hlookup]
    | _ => simp [profile?]
  | _ => simp [profile?]

theorem expand_eq_error_iff {e : ExpansionError} : s.expand profile g = .error e ↔
    s.profile? profile = .error e ∨ ∃ p r, s.profile? profile = .ok p ∧ s.guest p g = .error r ∧ e = .rejected r := by
  unfold expand
  cases s.profile? profile with
  | error x => simp [bind, Except.bind]
  | ok p => cases hguest : s.guest p g <;> simp [bind, Except.bind, Except.mapError, hguest, @eq_comm _ e]

end GuestSettings

namespace DomainItem

variable {s : GuestSettings} {d : Data} {e : TopologyError}

/-- How an item can end in an error that lies deeper than the topology as it is written. -/
inductive Stumbles (s : GuestSettings) (d : Data) : TopologyError → Prop where
  /-- The profile is a list or a mapping. -/
  | notAName {m : Mapping} {profile : Data} {parameters : GuestParameters}
      (mapping : d.untied = .mapping m) (named : m.at? "profile" = some profile)
      (parametrised : GuestParameters.reading (.mapping (m.without "profile")) = .valid parameters)
      (composite : ∀ v, profile ≠ .scalar v) : Stumbles s d (.expansion .notAName)
  /-- The profile is a number with too many digits, so that the message that it is unknown cannot be written. -/
  | unwritableName {m : Mapping} {v : Scalar} {parameters : GuestParameters}
      (mapping : d.untied = .mapping m) (named : m.at? "profile" = some (.scalar v))
      (parametrised : GuestParameters.reading (.mapping (m.without "profile")) = .valid parameters)
      (unwritable : v.isWritable = false) : Stumbles s d (.expansion .unwritable)
  /-- The parameters are refused, and the profile that the message is about cannot be shown. -/
  | unwritableRefusal {m : Mapping} {profile : Data} {faults : List Fault}
      (mapping : d.untied = .mapping m) (named : m.at? "profile" = some profile)
      (refused : GuestParameters.reading (.mapping (m.without "profile")) = .invalid faults)
      (unwritable : profile.display? = none) : Stumbles s d (.expansion .unwritable)
  /-- The settings fit into no domain. -/
  | misfit {m : Mapping} {t : String} {p : Profile} {parameters : GuestParameters} {r : Rejection}
      (mapping : d.untied = .mapping m) (named : m.at? "profile" = some (.text t)) (known : s.profiles.lookup t = some p)
      (parametrised : GuestParameters.reading (.mapping (m.without "profile")) = .valid parameters)
      (misfits : ¬ s.FitsGuests) (rejected : s.guest p parameters = .error r) : Stumbles s d (.expansion (.rejected r))

/-- **Items end in errors that lie deeper by stumbling**, and in no other way. -/
theorem stumbles_iff : of s d = .error e ∧ ¬ e.IsConfiguration ↔ Stumbles s d e := by
  constructor
  · rintro ⟨herror, hdeep⟩
    rcases named_or_plain d with ⟨m, profile, hm, hprofile⟩ | hplain
    · -- the profile is only looked up behind parameters that are read
      cases hparameters : GuestParameters.reading (.mapping (m.without "profile")) with
      | invalid faults =>
        obtain rfl := Except.error.inj ((of_refused hm hprofile hparameters).symm.trans herror)
        unfold invalidParameters at hdeep ⊢
        cases hshown : profile.display? with
        | none => exact .unwritableRefusal hm hprofile hparameters hshown
        | some shown =>
          rw [hshown] at hdeep
          exact absurd trivial hdeep
      | valid parameters =>
        rw [of_parametrised hm hprofile hparameters] at herror
        cases hexpand : s.expand profile parameters with
        | ok x => rw [hexpand] at herror; exact nomatch herror
        | error x =>
          rw [hexpand] at herror
          obtain rfl : TopologyError.expansion x = e := Except.error.inj herror
          rcases GuestSettings.expand_eq_error_iff.1 hexpand with hname | ⟨p, r, hname, hguest, rfl⟩
          · rcases GuestSettings.profile?_eq_error_iff.1 ⟨hname, hdeep⟩ with ⟨hcomposite, rfl⟩ | ⟨v, rfl, hwritable, rfl⟩
            · exact .notAName hm hprofile hparameters hcomposite
            · exact .unwritableName hm hprofile hparameters hwritable
          · obtain ⟨t, rfl, hknown⟩ := GuestSettings.profile?_eq_ok_iff.1 hname
            have hmisfit : ¬ s.FitsGuests := fun hfits => by
              obtain ⟨x, hx⟩ := (GuestSettings.guest_isOk_iff (GuestParameters.isName_volume hparameters)).2 hfits
              exact nomatch hguest.symm.trans hx
            exact .misfit hm hprofile hknown hparameters hmisfit hguest
    · exact nomatch (of_plain hplain).symm.trans herror
  · have hexpansion {m : Mapping} {profile : Data} {parameters : GuestParameters} {x : ExpansionError}
        (hm : d.untied = .mapping m) (hprofile : m.at? "profile" = some profile)
        (hparameters : GuestParameters.reading (.mapping (m.without "profile")) = .valid parameters)
        (hexpand : s.expand profile parameters = .error x) : of s d = .error (.expansion x) := by
      rw [of_parametrised hm hprofile hparameters, hexpand]
      rfl
    rintro (⟨hm, hprofile, hparameters, hcomposite⟩ | ⟨hm, hprofile, hparameters, hwritable⟩ |
      ⟨hm, hprofile, hrefused, hshown⟩ | ⟨hm, hprofile, hknown, hparameters, -, hguest⟩)
    · have hname : s.profile? _ = .error _ := (GuestSettings.profile?_eq_error_iff.2 (.inl ⟨hcomposite, rfl⟩)).1
      exact ⟨hexpansion hm hprofile hparameters (GuestSettings.expand_eq_error_iff.2 (.inl hname)), id⟩
    · have hname : s.profile? _ = .error _ :=
        (GuestSettings.profile?_eq_error_iff.2 (.inr ⟨_, rfl, hwritable, rfl⟩)).1
      exact ⟨hexpansion hm hprofile hparameters (GuestSettings.expand_eq_error_iff.2 (.inl hname)), id⟩
    · rw [of_refused hm hprofile hrefused, invalidParameters, hshown]
      exact ⟨rfl, id⟩
    · have hname := GuestSettings.profile?_eq_ok_iff.2 ⟨_, rfl, hknown⟩
      exact ⟨hexpansion hm hprofile hparameters
        (GuestSettings.expand_eq_error_iff.2 (.inr ⟨_, _, hname, hguest, rfl⟩)), id⟩

end DomainItem

/-! ### Topologies -/

namespace Topology

/-- **A topology that is refused is refused for what is written in it**, unless an item stumbles behind items that have
been prepared. -/
theorem load_stumbles_iff {s : GuestSettings} {d : Data} {e : TopologyError} :
    load s d = .error e ∧ ¬ e.IsConfiguration ↔
      ∃ m before item behind, d.untied = .mapping m ∧ domainItems? m = some (before ++ item :: behind) ∧
        (∀ b ∈ before, ∃ i, DomainItem.of s b = .ok i) ∧ DomainItem.Stumbles s item e := by
  have hmapping {m : Mapping} (hm : d.untied = .mapping m) : load s d = .error e ∧ ¬ e.IsConfiguration ↔
      (∃ items, domainItems? m = some items ∧ items.mapM (DomainItem.of s) = .error e) ∧ ¬ e.IsConfiguration := by
    refine and_congr_left fun hdeep => ?_
    unfold load
    rw [hm]
    dsimp only
    -- behind the items, only what is written can be refused
    have hread {is : Option (List DomainItem)} : (((Desired.readingWith (domainsReading is) d).titled
        "DesiredState").mapError TopologyError.invalid) ≠ .error e := by
      cases Desired.readingWith (domainsReading is) d with
      | valid x => exact nofun
      | invalid faults =>
        intro h
        obtain rfl := Except.error.inj h
        exact hdeep trivial
    cases domainItems? m with
    | none => simpa using hread
    | some items =>
      cases hitems : items.mapM (DomainItem.of s) with
      | error x => simp [hitems, bind, Except.bind, Option.mapM_some]
      | ok is => simpa [hitems, bind, Except.bind] using hread
  constructor
  · rintro ⟨herror, hdeep⟩
    by_cases hm : ∃ m, d.untied = .mapping m
    · obtain ⟨m, hm⟩ := hm
      obtain ⟨⟨items, hitems, hmapM⟩, -⟩ := (hmapping hm).1 ⟨herror, hdeep⟩
      obtain ⟨before, item, behind, rfl, hbefore, hitem⟩ := Except.mapM_eq_error_iff.1 hmapM
      exact ⟨m, before, item, behind, hm, hitems, hbefore, DomainItem.stumbles_iff.1 ⟨hitem, hdeep⟩⟩
    · unfold load at herror
      split at herror
      · next m hm' => exact absurd ⟨m, hm'⟩ hm
      · obtain rfl := Except.error.inj herror
        exact absurd trivial hdeep
  · rintro ⟨m, before, item, behind, hm, hitems, hbefore, hstumbles⟩
    obtain ⟨hitem, hdeep⟩ := DomainItem.stumbles_iff.2 hstumbles
    exact (hmapping hm).2 ⟨⟨_, hitems, Except.mapM_eq_error_iff.2 ⟨before, item, behind, rfl, hbefore, hitem⟩⟩, hdeep⟩

/-- **With settings that fit, and profiles that are texts, a topology is refused for what is written in it.** -/
theorem isConfiguration_of_load {s : GuestSettings} {d : Data} {e : TopologyError} (hfits : s.FitsGuests)
    (htexts : ∀ m items, d.untied = .mapping m → domainItems? m = some items → ∀ item ∈ items, ∀ (n : Mapping) (profile : Data),
      item.untied = .mapping n → n.at? "profile" = some profile → ∃ t, profile = .text t)
    (h : load s d = .error e) : e.IsConfiguration := by
  by_contra hdeep
  obtain ⟨m, before, item, behind, hm, hitems, -, hstumbles⟩ := load_stumbles_iff.1 ⟨h, hdeep⟩
  have htext := htexts m _ hm hitems item (by simp)
  cases hstumbles with
  | notAName hn hprofile _ hcomposite =>
    obtain ⟨t, rfl⟩ := htext _ _ hn hprofile
    exact hcomposite _ rfl
  | unwritableName hn hprofile _ hwritable =>
    obtain ⟨t, ht⟩ := htext _ _ hn hprofile
    obtain rfl := Data.scalar.inj ht
    exact nomatch hwritable
  | unwritableRefusal hn hprofile _ hshown =>
    obtain ⟨t, rfl⟩ := htext _ _ hn hprofile
    exact nomatch hshown
  | misfit _ _ _ _ hmisfit => exact hmisfit hfits

/-- A file is refused for what is written in it, unless its text has a flaw below its form, or its data is refused
otherwise. -/
theorem ofFile_deep_iff {s : GuestSettings} {path : String} {text : Option String} {e : TopologyError} :
    ofFile s path text = .error e ∧ ¬ e.IsConfiguration ↔
      ∃ written, text = some written ∧
        ((∃ flaw, Yaml.read written = .error flaw ∧ flaw ≠ .malformed ∧ e = .flawed flaw) ∨
          ∃ d, Yaml.read written = .ok d ∧ load s (if d.isBare then .mapping [] else d) = .error e ∧ ¬ e.IsConfiguration) := by
  cases text with
  | none =>
    constructor
    · rintro ⟨h, hdeep⟩
      obtain rfl := Except.error.inj h
      exact absurd trivial hdeep
    · rintro ⟨_, ⟨⟩, _⟩
  | some written =>
    have hsome {p : String → Prop} : (∃ w, some written = some w ∧ p w) ↔ p written := by simp
    rw [hsome, ofFile]
    cases Yaml.read written with
    | ok d => simp
    | error flaw =>
      -- a text that is malformed is refused for its form, all other flaws lie deeper
      cases flaw with
      | malformed =>
        constructor
        · rintro ⟨h, hdeep⟩
          obtain rfl := Except.error.inj h
          exact absurd trivial hdeep
        · rintro (⟨_, ⟨⟩, hne, -⟩ | ⟨_, ⟨⟩, -⟩)
          exact absurd rfl hne
      | _ =>
        constructor
        · rintro ⟨h, -⟩
          exact .inl ⟨_, rfl, nofun, (Except.error.inj h).symm⟩
        · rintro (⟨_, ⟨⟩, -, rfl⟩ | ⟨_, ⟨⟩, -⟩)
          exact ⟨rfl, id⟩

/-- A guest whose profile is a list. -/
def listAsProfile : Data :=
  .record [("profile", .list [.text "server"]), ("name", .text "vm"), ("volume", .text "vm.qcow2")]

end Topology

end VirtualTopology
