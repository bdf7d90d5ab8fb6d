import VirtualTopology.Proofs.Document.ReadBack
import VirtualTopology.Topology.Desired

/-!
# Plain texts

A text is plain (`Text.IsPlain`) if it has no character that documents refuse, change or give a meaning,
and no blanks at its ends. Written into a document it stands there as it is, and it comes back as it
was. A desired state is plain if all its texts are (`Desired.IsPlain`).
-/

namespace VirtualTopology

open Document Element

namespace Text

/-- A control character. -/
def isControl (c : Char) : Bool := c.toNat < 0x20 || (0x7f ≤ c.toNat && c.toNat ≤ 0x9f)

/-- A character with a meaning in markup. -/
def isMark (c : Char) : Bool := c == '&' || c == '<' || c == '>' || c == '"' || c == '\''

/-- A text that means itself in a document. -/
structure IsPlain (s : String) : Prop where
  allowed : ∀ c ∈ s.toList, isAllowed c = true
  uncontrolled : ∀ c ∈ s.toList, isControl c = false
  unmarked : ∀ c ∈ s.toList, isMark c = false
  trimmed : trim s = s

instance (s : String) : Decidable (IsPlain s) :=
  decidable_of_iff ((∀ c ∈ s.toList, isAllowed c = true) ∧ (∀ c ∈ s.toList, isControl c = false) ∧
      (∀ c ∈ s.toList, isMark c = false) ∧ trim s = s)
    ⟨fun ⟨ha, hc, hm, ht⟩ => ⟨ha, hc, hm, ht⟩, fun ⟨ha, hc, hm, ht⟩ => ⟨ha, hc, hm, ht⟩⟩

namespace IsPlain

variable {s : String} (h : IsPlain s)

include h

theorem isSettled : IsSettled s := by
  refine fun c hc => ⟨h.allowed c hc, ?_⟩
  rintro rfl
  exact absurd (h.uncontrolled _ hc) (by decide)

/-- The only white space in a plain text are spaces. -/
theorem eq_space {c : Char} (hc : c ∈ s.toList) (hw : isWhite c = true) : c = ' ' := by
  have hctl := h.uncontrolled c hc
  simp only [isWhite, Bool.or_eq_true, beq_iff_eq] at hw
  rcases hw with ((rfl | rfl) | rfl) | rfl
  · rfl
  · exact absurd hctl (by decide)
  · exact absurd hctl (by decide)
  · exact absurd hctl (by decide)

theorem flatten_eq : flatten s = s := flatten_eq_self fun _ hc hw => h.eq_space hc hw

end IsPlain

end Text

/-! ### The texts of a desired state -/

/-- The texts of a network. -/
def Network.texts (n : Network) : List String := [n.name, n.bridge]

/-- The texts of a volume. -/
def Volume.texts (v : Volume) : List String := [v.name, v.format]

/-- The texts of an entry for a volume. -/
def VolumeEntry.texts (e : VolumeEntry) : List String :=
  e.name :: e.volume.toList.flatMap Volume.texts

/-- The texts of a pool. -/
def Pool.texts (p : Pool) : List String :=
  [p.name, p.kind, p.target] ++ p.volumes.flatMap VolumeEntry.texts

/-- The texts of a disk. -/
def Disk.texts (d : Disk) : List String := [d.pool, d.volume, d.bus, d.format]

/-- The texts of an interface. -/
def Interface.texts (i : Interface) : List String := [i.network, i.model] ++ i.mac.toList

/-- The texts of a share. -/
def Share.texts (s : Share) : List String := [s.hostPath, s.mountTag] ++ s.binaryPath.toList

/-- The texts of a domain. -/
def Domain.texts (d : Domain) : List String :=
  [d.name, d.machine] ++ d.disks.flatMap Disk.texts ++ d.interfaces.flatMap Interface.texts ++
    d.shares.flatMap Share.texts ++ d.installMedia ++ d.nvram.toList

/-- The texts of what is declared about one kind. -/
def Declared.texts {α : Type} (item : α → List String) : Declared α → List String
  | .unmanaged assumed => assumed
  | .managed items => items.flatMap item

/-- The texts of a desired state. -/
def Desired.texts (d : Desired) : List String :=
  d.networks.texts Network.texts ++ d.pools.texts Pool.texts ++ d.domains.texts Domain.texts

/-- Whether all texts are plain. -/
def Text.ArePlain (texts : List String) : Prop := ∀ s ∈ texts, IsPlain s

instance (texts : List String) : Decidable (Text.ArePlain texts) :=
  inferInstanceAs (Decidable (∀ s ∈ texts, Text.IsPlain s))

/-- Whether a desired state has plain texts only. -/
def Desired.IsPlain (d : Desired) : Prop := Text.ArePlain d.texts

instance (d : Desired) : Decidable d.IsPlain := inferInstanceAs (Decidable (Text.ArePlain d.texts))

namespace Declared

variable {α : Type} {item : α → List String} {x : Declared α}

theorem arePlain_of_mem (h : Text.ArePlain (x.texts item)) {a : α} (ha : a ∈ x.items) :
    Text.ArePlain (item a) := by
  cases x with
  | unmanaged assumed => exact absurd ha (by simp [items])
  | managed as => exact fun s hs => h s (List.mem_flatMap.2 ⟨a, ha, hs⟩)

end Declared

namespace Desired.IsPlain

variable {d : Desired} (h : d.IsPlain)

include h

theorem network {n : Network} (hn : n ∈ d.networks.items) : Text.ArePlain n.texts :=
  have hall : Text.ArePlain (d.networks.texts Network.texts) := fun s hs => h s (by simp [Desired.texts, hs])
  Declared.arePlain_of_mem hall hn

theorem pool {p : Pool} (hp : p ∈ d.pools.items) : Text.ArePlain p.texts :=
  have hall : Text.ArePlain (d.pools.texts Pool.texts) := fun s hs => h s (by simp [Desired.texts, hs])
  Declared.arePlain_of_mem hall hp

theorem domain {x : Domain} (hx : x ∈ d.domains.items) : Text.ArePlain x.texts :=
  have hall : Text.ArePlain (d.domains.texts Domain.texts) := fun s hs => h s (by simp [Desired.texts, hs])
  Declared.arePlain_of_mem hall hx

theorem volume {p : Pool} (hp : p ∈ d.pools.items) {e : VolumeEntry} (he : e ∈ p.volumes)
    {v : Volume} (hv : e.volume = some v) : Text.ArePlain v.texts := by
  intro s hs
  refine h.pool hp s (List.mem_append_right _ (List.mem_flatMap.2 ⟨e, he, ?_⟩))
  simp [VolumeEntry.texts, hv, hs]

end Desired.IsPlain

end VirtualTopology
