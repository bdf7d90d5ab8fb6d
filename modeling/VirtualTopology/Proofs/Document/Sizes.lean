import Mathlib.Order.Bounds.Defs
import VirtualTopology.Proofs.Document.Faithful

/-!
# Sizes in documents

A document states a size as a number of small units: the capacity of a volume in bytes, the memory of a domain in KiB. So
sizes are told apart by their numbers and not by the units in which they are declared. A volume is read back at its
capacity, whatever the unit, and two volumes of one name and format have the same document exactly if they are of the same
size. Memory is rounded up (`Quantity.isLeast_toKiB`), so two domains that differ in memory alone have the same document
exactly if both round up to the same number (`renders_sizes`).

Both follow from what is read of a document: a text that two documents share is read in one way only.
-/

namespace VirtualTopology

open Document Element

theorem Text.unified_toString (n : Nat) : unified (toString n) = toString n :=
  Element.unified_eq_self (isSettled_nat n)

namespace Quantity

variable {q : Quantity}

theorem toBytes_le_toKiB (q : Quantity) : q.toBytes ≤ 1024 * q.toKiB := by
  rw [toKiB]
  omega

theorem toKiB_le {k : Nat} (h : q.toBytes ≤ 1024 * k) : q.toKiB ≤ k := by
  rw [toKiB]
  omega

/-- **The number of KiB is the least that holds all bytes.** -/
theorem isLeast_toKiB (q : Quantity) : IsLeast {k | q.toBytes ≤ 1024 * k} q.toKiB :=
  ⟨q.toBytes_le_toKiB, fun _ h => toKiB_le h⟩

end Quantity

/-! ### Volumes -/

namespace Volume

variable {v w : Volume} {text : String}

theorem written_eq_ok (h : v.written = .ok text) :
    Text.isWritable v.capacity.toBytes = true ∧ v.document.render = .ok text := by
  rw [written] at h
  split at h
  · next hwritable => exact ⟨hwritable, h⟩
  · cases h

/-- What is read of the document of a volume states its capacity. -/
theorem volumeCapacity?_asRead (h : Text.isWritable v.capacity.toBytes = true) :
    (v.document.asRead 0).volumeCapacity? = some v.capacity.toBytes := by
  have hfirst : v.document.first? "capacity" =
      some (leaf "capacity" (toString v.capacity.toBytes) [("unit", "bytes")]) := rfl
  have hunit : (leaf "capacity" (toString v.capacity.toBytes) [("unit", "bytes")]).attribute? "unit" =
      some "bytes" := rfl
  have hlead : ((leaf "capacity" (toString v.capacity.toBytes) [("unit", "bytes")]).asRead 2).lead =
      toString v.capacity.toBytes := by
    rw [lead_asRead, Text.unified_toString]
  have hbytes : SizeUnit.ofWord? (shown "bytes") = some .bytes := by decide
  simp only [volumeCapacity?, keepsShape_asRead.first?_eq, hfirst, Option.map_some, Option.bind_eq_bind, Option.bind_some,
    attribute?_asRead, hunit, Option.getD_some, hbytes, hlead, Text.integer?_toString h]
  simp [Quantity.toBytes, SizeUnit.size]

/-- **A volume is read back at its capacity.** -/
theorem volumeCapacity?_written (h : v.written = .ok text) :
    (Element.read? text).bind volumeCapacity? = some v.capacity.toBytes := by
  obtain ⟨hwritable, hrender⟩ := written_eq_ok h
  rw [v.framed.read?_render hrender, Option.bind_some, volumeCapacity?_asRead hwritable]

/-- The text of a volume depends on its capacity only through the number of bytes. -/
theorem written_congr (hname : v.name = w.name) (hformat : v.format = w.format)
    (hcapacity : v.capacity.toBytes = w.capacity.toBytes) : v.written = w.written := by
  rw [written, written, document, document, hname, hformat, hcapacity]

end Volume

/-! ### Domains -/

namespace Domain

variable {d : Domain} {q : Quantity} {text : String}

/-- What is read of the document of a domain states its memory. -/
theorem lead_memory_asRead (d : Domain) :
    ((d.document.asRead 0).first? "memory").map (·.lead) = some (toString d.memory.toKiB) := by
  have hfirst : d.document.first? "memory" =
      some (leaf "memory" (toString d.memory.toKiB) [("unit", "KiB")]) := rfl
  rw [keepsShape_asRead.first?_eq, hfirst, Option.map_some, Option.map_some, lead_asRead, Text.unified_toString]

theorem lead_memory_written (h : d.written = .ok text) :
    (Element.read? text).bind (fun e => (e.first? "memory").map (·.lead)) = some (toString d.memory.toKiB) := by
  have hrender := Declaration.render_eq_of_written (s := .domain d) h
  rw [(Declaration.domain d).orderly.framed.read?_render hrender, Option.bind_some]
  exact d.lead_memory_asRead

/-- The text of a domain depends on its memory only through the number of KiB. -/
theorem written_withMemory (h : q.toKiB = d.memory.toKiB) : ({ d with memory := q } : Domain).written = d.written := by
  have hdocument : ({ d with memory := q } : Domain).document = d.document := by
    rw [document, document, h]
    rfl
  rw [written, written, hdocument, h]

end Domain

/-! ### All sizes -/

/-- **Documents state sizes, not units.** A volume is read back at its size in bytes, and volumes of one name and format
share a document exactly if they are of the same size. The KiB of a quantity are the least number that holds its bytes, and
domains that differ in memory alone share a document exactly if this number is the same. -/
theorem renders_sizes (v : Volume) (d : Domain) (q : Quantity) (text : String) :
    (v.written = .ok text →
      (Element.read? text).bind volumeCapacity? = some v.capacity.toBytes ∧
        ∀ w : Volume, w.name = v.name → w.format = v.format →
          (w.written = .ok text ↔ w.capacity.toBytes = v.capacity.toBytes)) ∧
    IsLeast {k | q.toBytes ≤ 1024 * k} q.toKiB ∧
    (d.written = .ok text →
      (({ d with memory := q } : Domain).written = .ok text ↔ q.toKiB = d.memory.toKiB)) := by
  -- two documents of one text are read as the same size; sizes that are the same are written alike
  refine ⟨fun hv => ⟨Volume.volumeCapacity?_written hv, fun w hname hformat => ⟨fun hw => ?_, fun hsame => ?_⟩⟩,
    q.isLeast_toKiB, fun hd => ⟨fun hq => ?_, fun hsame => ?_⟩⟩
  · exact Option.some.inj ((Volume.volumeCapacity?_written hw).symm.trans (Volume.volumeCapacity?_written hv))
  · exact (Volume.written_congr hname hformat hsame).trans hv
  · exact Text.toString_nat_injective
      (Option.some.inj ((Domain.lead_memory_written hq).symm.trans (Domain.lead_memory_written hd)))
  · exact (Domain.written_withMemory hsame).trans hd

/-- Volumes of four GiB in two units, one of five GB, and a domain with memory that is not a whole number of KiB. -/
theorem renders_sizes_inUnits :
    let disk (capacity : Quantity) : Volume := { name := "vm", capacity, format := "qcow2" }
    let guest (memory : Quantity) : Domain := { Domain.attached with memory }
    ∃ text text', (disk ⟨4, .GiB⟩).written = .ok text ∧
      (Element.read? text).bind volumeCapacity? = some 4294967296 ∧
      (disk ⟨4096, .MiB⟩).written = .ok text ∧ (disk ⟨5, .GB⟩).written ≠ .ok text ∧
      (guest ⟨1025, .bytes⟩).written = .ok text' ∧ (guest ⟨2, .KiB⟩).written = .ok text' ∧
      (guest ⟨3, .KB⟩).written ≠ .ok text' := by
  intro disk guest
  have hvolume : (disk ⟨4, .GiB⟩).written = .ok (disk ⟨4, .GiB⟩).document.print := by
    rw [Volume.written_eq (by decide), if_pos (Text.isWritable_of_lt (by decide))]
  have hdomain : (guest ⟨1025, .bytes⟩).written = .ok (guest ⟨1025, .bytes⟩).document.print := by
    rw [Domain.written_eq (by decide), if_pos (Text.isWritable_of_lt (by decide))]
  have hgib : (disk ⟨4, .GiB⟩).capacity.toBytes = 4294967296 := by decide
  have hmib : (disk ⟨4096, .MiB⟩).capacity.toBytes = 4294967296 := by decide
  have hgb : (disk ⟨5, .GB⟩).capacity.toBytes = 5000000000 := by decide
  have hsize := (renders_sizes (disk ⟨4, .GiB⟩) (guest ⟨1025, .bytes⟩) ⟨2, .KiB⟩ _).1 hvolume
  have hmemory (q : Quantity) := (renders_sizes (disk ⟨4, .GiB⟩) (guest ⟨1025, .bytes⟩) q _).2.2 hdomain
  refine ⟨_, _, hvolume, hsize.1.trans (congrArg some hgib), ?_, ?_, hdomain, ?_, ?_⟩
  · exact (hsize.2 (disk ⟨4096, .MiB⟩) rfl rfl).2 (hmib.trans hgib.symm)
  · intro h
    have hsame := (hsize.2 (disk ⟨5, .GB⟩) rfl rfl).1 h
    rw [hgb, hgib] at hsame
    exact absurd hsame (by decide)
  · exact (hmemory ⟨2, .KiB⟩).2 (by decide)
  · exact fun h => absurd ((hmemory ⟨3, .KB⟩).1 h) (by decide)

end VirtualTopology
