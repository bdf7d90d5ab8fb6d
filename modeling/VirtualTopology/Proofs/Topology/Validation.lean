import Mathlib.Data.List.Nodup
import VirtualTopology.Proofs.Pass.Pools
import VirtualTopology.Topology.Audit

/-!
# What validated desired states have

A desired state is validated if its entries for volumes agree with their definitions and if no issue is
found (`Desired.Validates`); the first holds of all desired states that are read
(`Desired.validates_of_reading`). Then names are not repeated (`Desired.Validates.networks` and the like),
pools with volumes run (`Desired.Validates.pool_isSound`), and the networks and pools that domains refer to
are declared or taken to be present (`Desired.Validates.network_resolves`, `pool_resolves`).
-/

namespace VirtualTopology

/-! ### Readings that are valid -/

namespace Checked

variable {α β : Type}

theorem map_eq_valid_iff {f : α → β} {x : Checked α} {b : β} :
    f <$> x = .valid b ↔ ∃ a, x = .valid a ∧ f a = b := by
  cases x with
  | valid a =>
    constructor
    · exact fun h => ⟨a, rfl, Checked.valid.inj h⟩
    · rintro ⟨_, ⟨⟩, rfl⟩
      rfl
  | invalid fs =>
    constructor
    · exact fun h => nomatch h
    · rintro ⟨_, ⟨⟩, _⟩

theorem seq_eq_valid_iff {f : Checked (α → β)} {x : Checked α} {b : β} :
    f <*> x = .valid b ↔ ∃ g a, f = .valid g ∧ x = .valid a ∧ g a = b := by
  constructor
  · intro h
    cases f with
    | valid g =>
      cases x with
      | valid a => exact ⟨g, a, rfl, rfl, Checked.valid.inj h⟩
      | invalid fs => exact nomatch h
    | invalid fs => cases x <;> exact nomatch h
  · rintro ⟨g, a, rfl, rfl, rfl⟩
    rfl

theorem andThen_eq_valid_iff {x : Checked α} {f : α → Checked β} {b : β} :
    x.andThen f = .valid b ↔ ∃ a, x = .valid a ∧ f a = .valid b := by
  constructor
  · intro h
    cases x with
    | valid a => exact ⟨a, rfl, h⟩
    | invalid fs => exact nomatch h
  · rintro ⟨a, rfl, h⟩
    exact h

theorem under_eq_valid_iff {x : Checked α} {s : Step} {a : α} :
    x.under s = .valid a ↔ x = .valid a := by
  cases x with
  | valid b => exact Iff.rfl
  | invalid fs =>
    constructor
    · exact fun h => nomatch h
    · exact fun h => nomatch h

end Checked

namespace Reading

open Checked

variable {α : Type} {r : Reading α} {p : α → Prop}

theorem eq_valid_of_sealed {keys : List String} {m : Mapping} {body : Checked α} {a : α}
    (h : Reading.sealed keys m body = .valid a) : body = .valid a := by
  unfold Reading.sealed at h
  split at h
  · exact nomatch h
  · split at h
    · exact h
    · exact nomatch h

theorem eq_valid_of_record {body : Mapping → Checked α} {d : Data} {a : α}
    (h : record body d = .valid a) : ∃ m, body m = .valid a := by
  unfold record at h
  split at h
  · exact ⟨_, h⟩
  · exact nomatch h

/-- A field that has to be there has been read. -/
theorem read_of_required {m : Mapping} {key : String} {a : α} (h : required m key r = .valid a) :
    ∃ d, r d = .valid a := by
  rw [required, under_eq_valid_iff] at h
  cases hm : m.at? key with
  | none => rw [hm] at h; exact nomatch h
  | some d => rw [hm] at h; exact ⟨d, h⟩

/-- An optional value that is there has been read. -/
theorem read_of_optional {d : Data} {a : α} (h : optional r d = .valid (some a)) : ∃ e, r e = .valid a := by
  unfold optional at h
  split at h
  · exact nomatch h
  · obtain ⟨b, hb, heq⟩ := map_eq_valid_iff.1 h
    obtain rfl := Option.some.inj heq
    exact ⟨_, hb⟩

/-- A field with a default is the default or has been read. -/
theorem eq_or_read_of_defaulted {m : Mapping} {key : String} {value a : α}
    (h : defaulted m key value r = .valid a) : a = value ∨ ∃ d, r d = .valid a := by
  rw [defaulted, under_eq_valid_iff] at h
  cases hm : m.at? key with
  | none => rw [hm] at h; exact .inl (Checked.valid.inj h).symm
  | some d => rw [hm] at h; exact .inr ⟨d, h⟩

theorem forall_of_items (hr : ∀ d a, r d = .valid a → p a) {place : Nat} {ds : List Data}
    {as : List α} (h : items r place ds = .valid as) : ∀ a ∈ as, p a := by
  induction ds generalizing place as with
  | nil =>
    obtain rfl := Checked.valid.inj h
    simp
  | cons d ds ih =>
    obtain ⟨f, bs, hf, hbs, rfl⟩ := seq_eq_valid_iff.1 h
    obtain ⟨b, hb, rfl⟩ := map_eq_valid_iff.1 hf
    rw [List.forall_mem_cons]
    exact ⟨hr d b (under_eq_valid_iff.1 hb), ih hbs⟩

/-- What holds of all values that are read holds of all members of a list that is read. -/
theorem forall_of_list (hr : ∀ d a, r d = .valid a → p a) {d : Data} {as : List α}
    (h : list r d = .valid as) : ∀ a ∈ as, p a := by
  unfold list at h
  split at h
  · exact forall_of_items hr h
  · exact forall_of_items hr h
  · exact forall_of_items hr h
  · exact nomatch h

end Reading

/-! ### Desired states that are read -/

/-- A hardware address that was read has passed. -/
theorem Interface.accepts_of_macReading {data : Data} {mac : String} (h : Interface.macReading data = .valid mac) :
    HardwareAddress.accepts mac.toList = true := by
  obtain ⟨t, -, ht⟩ := Checked.andThen_eq_valid_iff.1 h
  dsimp only at ht
  split at ht
  · next haccepted =>
    obtain rfl := Checked.valid.inj ht
    exact haccepted
  · exact nomatch ht

theorem VolumeEntry.eq_of_agree {e e' : VolumeEntry} (h : e.agree = .valid e') : e' = e := by
  unfold VolumeEntry.agree at h
  split at h
  · split at h
    · exact nomatch h
    · exact (Checked.valid.inj h).symm
  · split at h
    · exact (Checked.valid.inj h).symm
    · exact nomatch h

theorem VolumeEntry.agree_of_reading {d : Data} {e : VolumeEntry} (h : VolumeEntry.reading d = .valid e) :
    e.agree = .valid e := by
  obtain ⟨m, hm⟩ := Reading.eq_valid_of_record h
  obtain ⟨e', -, he⟩ := Checked.andThen_eq_valid_iff.1 hm
  obtain rfl := eq_of_agree he
  exact he

theorem Pool.agree_of_reading {d : Data} {p : Pool} (h : Pool.reading d = .valid p) :
    ∀ e ∈ p.volumes, e.agree = .valid e := by
  obtain ⟨m, hm⟩ := Reading.eq_valid_of_record h
  have hbody := Reading.eq_valid_of_sealed hm
  obtain ⟨f₇, autostart, hf₇, -, rfl⟩ := Checked.seq_eq_valid_iff.1 hbody
  obtain ⟨f₆, active, hf₆, -, rfl⟩ := Checked.seq_eq_valid_iff.1 hf₇
  obtain ⟨f₅, volumes, hf₅, hvolumes, rfl⟩ := Checked.seq_eq_valid_iff.1 hf₆
  obtain ⟨f₄, target, hf₄, -, rfl⟩ := Checked.seq_eq_valid_iff.1 hf₅
  obtain ⟨f₃, kind, hf₃, -, rfl⟩ := Checked.seq_eq_valid_iff.1 hf₄
  obtain ⟨f₂, identifier, hf₂, -, rfl⟩ := Checked.seq_eq_valid_iff.1 hf₃
  obtain ⟨name, -, rfl⟩ := Checked.map_eq_valid_iff.1 hf₂
  rcases Reading.eq_or_read_of_defaulted hvolumes with rfl | ⟨ds, hds⟩
  · exact fun e he => absurd he (by simp)
  · exact Reading.forall_of_list (fun _ _ => VolumeEntry.agree_of_reading) hds

theorem Declared.forall_of_reading {α : Type} {resources : Reading (List α)} {p : α → Prop}
    (hr : ∀ d as, resources d = .valid as → ∀ a ∈ as, p a) {d : Data} {x : Declared α}
    (h : Declared.reading resources d = .valid x) : ∀ a ∈ x.items, p a := by
  unfold Declared.reading at h
  split at h
  · split at h
    · cases h
    · have hbody := Reading.eq_valid_of_sealed (Checked.under_eq_valid_iff.1 h)
      obtain ⟨assumed, -, rfl⟩ := Checked.map_eq_valid_iff.1 hbody
      exact fun a ha => absurd ha (by simp [Declared.items])
    · have hbody := Reading.eq_valid_of_sealed (Checked.under_eq_valid_iff.1 h)
      obtain ⟨items, hitems, rfl⟩ := Checked.map_eq_valid_iff.1 hbody
      rcases Reading.eq_or_read_of_defaulted hitems with rfl | ⟨ds, hds⟩
      · exact fun a ha => absurd ha (by simp [Declared.items])
      · exact hr ds items hds
    · cases h
  · cases h

/-- A desired state in which nothing is found wrong. -/
structure Desired.Validates (d : Desired) : Prop where
  entries : ∀ p ∈ d.pools.items, ∀ e ∈ p.volumes, e.agree = .valid e
  audit : d.audit = []

/-- **A desired state that is read validates if it has no issues.** -/
theorem Desired.validates_of_reading {domains : Reading (List Domain)} {data : Data} {d : Desired}
    (h : Desired.readingWith domains data = .valid d) (haudit : d.audit = []) : d.Validates := by
  refine ⟨?_, haudit⟩
  obtain ⟨m, hm⟩ := Reading.eq_valid_of_record h
  have hbody := Reading.eq_valid_of_sealed hm
  obtain ⟨f₃, ds, hf₃, -, rfl⟩ := Checked.seq_eq_valid_iff.1 hbody
  obtain ⟨f₂, pools, hf₂, hpools, rfl⟩ := Checked.seq_eq_valid_iff.1 hf₃
  obtain ⟨networks, -, rfl⟩ := Checked.map_eq_valid_iff.1 hf₂
  rcases Reading.eq_or_read_of_defaulted hpools with rfl | ⟨x, hx⟩
  · exact fun p hp => absurd hp (by simp [Declared.items])
  · exact Declared.forall_of_reading (fun ds ps hps =>
      Reading.forall_of_list (fun _ _ => Pool.agree_of_reading) hps) hx

/-! ### What the audit finds -/

namespace Audit

/-- **Nothing is repeated if and only if nothing occurs twice.** -/
theorem repeated_eq_nil_iff {α : Type} [BEq α] [LawfulBEq α] {xs : List α} : repeated xs = [] ↔ xs.Nodup := by
  rw [repeated, tally, List.filter_eq_nil_iff, List.forall_mem_map, List.nodup_iff_count_le_one]
  refine ⟨fun h x => ?_, fun h x _ => ?_⟩
  · by_cases hx : x ∈ xs
    · simpa using h x (List.mem_eraseDups.2 hx)
    · rw [List.count_eq_zero_of_not_mem hx]
      exact Nat.zero_le 1
  · simpa using h x

theorem repeatedTexts_eq_nil_iff {xs : List String} : repeatedTexts xs = [] ↔ xs.Nodup := by
  rw [repeatedTexts, ← repeated_eq_nil_iff, ← List.length_eq_zero_iff, List.length_mergeSort,
    List.length_eq_zero_iff]

theorem checkNames_eq_nil_iff {kind : ResourceKind} {names : List String} :
    checkNames kind names = [] ↔ names.Nodup := by
  rw [checkNames, List.map_eq_nil_iff, repeatedTexts_eq_nil_iff]

theorem checkBridges_nil : checkBridges [] = [] := rfl

/-- **There are no issues if and only if each check finds none.** -/
theorem audit_eq_nil_iff {d : Desired} : d.audit = [] ↔
    (d.networks.items.map (·.name)).Nodup ∧ (d.pools.items.map (·.name)).Nodup ∧
    (d.domains.items.map (·.name)).Nodup ∧ (∀ n ∈ d.networks.items, checkNetwork n = []) ∧
    checkBridges d.networks.items = [] ∧ (∀ p ∈ d.pools.items, checkPool p = []) ∧
    (∀ x ∈ d.domains.items, checkDomain d x = []) ∧
    checkClaims d.networks.items [] (claims d.domains.items) = [] := by
  simp only [Desired.audit, List.append_eq_nil_iff, List.flatMap_eq_nil_iff, checkNames_eq_nil_iff, and_assoc]

end Audit

namespace Desired.Validates

open Audit

variable {d : Desired} (h : d.Validates)

include h

theorem checks : (d.networks.items.map (·.name)).Nodup ∧ (d.pools.items.map (·.name)).Nodup ∧
    (d.domains.items.map (·.name)).Nodup ∧ (∀ p ∈ d.pools.items, checkPool p = []) ∧
    ∀ x ∈ d.domains.items, checkDomain d x = [] := by
  obtain ⟨hnetworks, hpools, hdomains, -, -, hpool, hdomain, -⟩ := audit_eq_nil_iff.1 h.audit
  exact ⟨hnetworks, hpools, hdomains, hpool, hdomain⟩

/-- No network is declared twice. -/
theorem networks : (d.networks.items.map (·.name)).Nodup := h.checks.1

/-- No pool is declared twice. -/
theorem pools : (d.pools.items.map (·.name)).Nodup := h.checks.2.1

/-- No domain is declared twice. -/
theorem domains : (d.domains.items.map (·.name)).Nodup := h.checks.2.2.1

/-- No volume of a pool is declared twice. -/
theorem volumes {p : Pool} (hp : p ∈ d.pools.items) : (p.volumes.map (·.name)).Nodup := by
  have hcheck := h.checks.2.2.2.1 p hp
  simp only [checkPool, List.append_eq_nil_iff, List.map_eq_nil_iff] at hcheck
  exact repeatedTexts_eq_nil_iff.1 hcheck.1

/-- **A declared pool with plain texts is sound.** -/
theorem pool_isSound (hplain : d.IsPlain) {p : Pool} (hp : p ∈ d.pools.items) : p.IsSound := by
  have hcheck := h.checks.2.2.2.1 p hp
  simp only [checkPool, List.append_eq_nil_iff, List.map_eq_nil_iff] at hcheck
  refine ⟨hplain.pool hp, fun e he hpresent => ?_, h.volumes hp, fun hne => ?_⟩
  · have hagree := h.entries p hp e he
    unfold VolumeEntry.agree at hagree
    split at hagree
    · rw [if_pos hpresent] at hagree
      exact nomatch hagree
    · next v hv =>
      split at hagree
      · next hname => exact ⟨v, hv, hname, hplain.volume hp he hv⟩
      · exact nomatch hagree
  · cases hpool : p.active with
    | true => rfl
    | false => simp [hpool, hne] at hcheck

/-- **The networks that a declared domain is on** are declared or taken to be present. -/
theorem network_resolves {x : Domain} (hx : x ∈ d.domains.items) {i : Interface}
    (hi : i ∈ x.interfaces) : resolves d.networks (·.name) i.network = true := by
  have hcheck := h.checks.2.2.2.2 x hx
  simp only [checkDomain, List.map_eq_nil_iff, List.append_eq_nil_iff, List.filter_eq_nil_iff] at hcheck
  simpa using hcheck.1.1.1.1 i hi

/-- **The pools that a declared domain has disks in** are declared or taken to be present. -/
theorem pool_resolves {x : Domain} (hx : x ∈ d.domains.items) {k : Disk} (hk : k ∈ x.disks) :
    resolves d.pools (·.name) k.pool = true := by
  have hcheck := h.checks.2.2.2.2 x hx
  simp only [checkDomain, List.map_eq_nil_iff, List.append_eq_nil_iff, List.flatMap_eq_nil_iff] at hcheck
  have hdisk := hcheck.1.1.1.2 k hk
  unfold checkDisk at hdisk
  split at hdisk
  · exact absurd hdisk (by simp)
  · next hresolves => simpa using hresolves

end Desired.Validates

/-! ### A small topology -/

/-- A pool with one volume. -/
def Pool.images : Pool :=
  { name := "images", identifier := some ⟨1⟩, kind := "dir", target := "/images"
    volumes := [{ name := "disk", present := true
                  volume := some { name := "disk", capacity := ⟨1, .GiB⟩, format := "qcow2" } }]
    active := true, autostart := true }

/-- A desired state with a pool and a volume, and with no networks and no domains. -/
def Desired.withImages : Desired :=
  { networks := .managed [], pools := .managed [.images], domains := .managed [] }

theorem Desired.validates_withImages : Desired.withImages.Validates := by
  refine ⟨?_, Audit.audit_eq_nil_iff.2 ?_⟩
  · simp [withImages, Pool.images, Declared.items, VolumeEntry.agree]
  · simp [withImages, Pool.images, Declared.items, Audit.checkBridges_nil, Audit.checkPool,
      Audit.repeatedTexts_eq_nil_iff, Audit.claims, Audit.checkClaims]

theorem Desired.isPlain_withImages : Desired.withImages.IsPlain := by decide

end VirtualTopology
