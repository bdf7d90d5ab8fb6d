import VirtualTopology.Proofs.Host.Serving
import VirtualTopology.Proofs.Text.Paths
import VirtualTopology.Topology.Expansion

/-!
# Variable stores of guests

A guest whose firmware checks signatures keeps its variables in a file. Unless the guest names one, the file is made up
from its volume: it stands in the directory for variable stores and has the name of the volume, with `.nvram` in place of
the last suffix (`GuestSettings.nvramPath`).

The file is directly in that directory whatever the volume is called, with slashes, points or steps up
(`GuestSettings.places_variableStores`). Two guests have the same file exactly if their volumes have the same stem, so that
volumes with one suffix are kept apart (`GuestSettings.nvramPath_eq_iff_of_suffix`), but `dc01.qcow2` and `dc01.raw` are not
(`GuestSettings.shares_variableStore`).
-/

namespace VirtualTopology

open PosixPath
open Tables (exists_of_bind_eq_ok)

namespace GuestSettings

variable {s : GuestSettings} {profile profile' : Data} {g g' : GuestParameters} {d d' : Domain}

/-! ### Paths -/

/-- The suffix of variable stores makes a name of every stem, and no step up. -/
theorem isName_store (volume : String) :
    IsName ((ofText volume).stem ++ ".nvram") ∧ (ofText volume).stem ++ ".nvram" ≠ ".." := by
  refine ⟨.of_append (flat_stem volume) (by decide) (by decide), fun h => ?_⟩
  have hlength := congrArg (·.toList.length) h
  simp at hlength

theorem nvramPath_eq (s : GuestSettings) (volume : String) : s.nvramPath volume =
    text ⟨(ofText s.nvramDirectory).root, (ofText s.nvramDirectory).names ++ [(ofText volume).stem ++ ".nvram"]⟩ := by
  rw [nvramPath, (isName_store volume).1.ofText_eq]
  rfl

theorem isNormal_store (s : GuestSettings) (volume : String) : IsNormal
    ⟨(ofText s.nvramDirectory).root, (ofText s.nvramDirectory).names ++ [(ofText volume).stem ++ ".nvram"]⟩ :=
  isNormal_concat (isName_store volume).1 (isNormal_ofText s.nvramDirectory)

/-- **A variable store lies in the directory for them.** -/
theorem liesIn_nvramPath (s : GuestSettings) (volume : String) :
    (ofText (s.nvramPath volume)).LiesIn (ofText s.nvramDirectory) := by
  obtain ⟨hname, hstep⟩ := isName_store volume
  refine ⟨_, hname, hstep, ?_⟩
  rw [nvramPath_eq, ofText_text (s.isNormal_store volume)]

/-- **Volumes have the same variable store exactly if they have the same stem.** -/
theorem nvramPath_eq_iff (s : GuestSettings) (volume volume' : String) :
    s.nvramPath volume = s.nvramPath volume' ↔ (ofText volume).stem = (ofText volume').stem := by
  rw [nvramPath_eq, nvramPath_eq, text_inj (s.isNormal_store volume) (s.isNormal_store volume')]
  simp [String.append_left_inj]

/-- Volumes that are plain names with the same suffix have different variable stores. -/
theorem nvramPath_eq_iff_of_suffix (s : GuestSettings) {front front' suffix : String}
    (hfront : '/' ∉ front.toList ∧ front ≠ "") (hfront' : '/' ∉ front'.toList ∧ front' ≠ "")
    (hsuffix : '/' ∉ suffix.toList ∧ '.' ∉ suffix.toList ∧ suffix ≠ "") :
    s.nvramPath (front ++ ("." ++ suffix)) = s.nvramPath (front' ++ ("." ++ suffix)) ↔ front = front' := by
  rw [nvramPath_eq_iff, stem_ofText hfront.1 hsuffix.1 hfront.2 hsuffix.2.1 hsuffix.2.2,
    stem_ofText hfront'.1 hsuffix.1 hfront'.2 hsuffix.2.1 hsuffix.2.2]

/-! ### Guests -/

/-- A guest that names no variable store has the one of its volume. -/
theorem nvram_of_expand (h : s.expand profile g = .ok d) (hnone : g.nvram.getD "" = "") :
    d.nvram = some (s.nvramPath g.volume) := by
  obtain ⟨p, -, h⟩ := exists_of_bind_eq_ok h
  cases hguest : s.guest p g with
  | error r => rw [hguest] at h; exact nomatch h
  | ok x =>
    rw [hguest] at h
    obtain rfl := Except.ok.inj h
    obtain ⟨i, -, hdisk⟩ := exists_of_bind_eq_ok hguest
    obtain ⟨k, -, hdomain⟩ := exists_of_bind_eq_ok hdisk
    obtain rfl := Except.ok.inj hdomain
    show firstGiven g.nvram _ = _
    unfold firstGiven
    split
    · -- a store that is named by an empty text counts as not named
      next named heq =>
      obtain rfl : named = "" := by simpa [heq] using hnone
      rfl
    · rfl

/-- **Variable stores of guests.** With any settings, and for any two guests that name no variable store and are expanded
from any profiles, the stores lie directly in the directory for them, whatever the volumes are called, and they are
different exactly if the stems of the volumes are. -/
theorem places_variableStores (h : s.expand profile g = .ok d) (h' : s.expand profile' g' = .ok d')
    (hnone : g.nvram.getD "" = "") (hnone' : g'.nvram.getD "" = "") :
    ∃ store store', d.nvram = some store ∧ d'.nvram = some store' ∧
      (ofText store).LiesIn (ofText s.nvramDirectory) ∧ (ofText store').LiesIn (ofText s.nvramDirectory) ∧
      (store ≠ store' ↔ (ofText g.volume).stem ≠ (ofText g'.volume).stem) :=
  ⟨_, _, nvram_of_expand h hnone, nvram_of_expand h' hnone', s.liesIn_nvramPath _, s.liesIn_nvramPath _,
    not_congr (s.nvramPath_eq_iff _ _)⟩

/-- Two guests whose volumes have slashes and steps up in their names. -/
theorem places_variableStores_withSteps : ∃ d d' : Domain,
    expand {} (.text "server") { name := "a", volume := "../../etc/a.d/.." } = .ok d ∧
    expand {} (.text "client") { name := "b", volume := "/disks//b.qcow2/", nvram := some "" } = .ok d' ∧
    d.nvram ≠ d'.nvram ∧ d.nvram = some "/var/lib/libvirt/qemu/nvram/...nvram" ∧
    d'.nvram = some "/var/lib/libvirt/qemu/nvram/b.nvram" ∧
    (ofText "/var/lib/libvirt/qemu/nvram/...nvram").LiesIn (ofText "/var/lib/libvirt/qemu/nvram") := by
  obtain ⟨d, hd⟩ : ∃ d, expand {} (.text "server") { name := "a", volume := "../../etc/a.d/.." } = .ok d := ⟨_, rfl⟩
  obtain ⟨d', hd'⟩ : ∃ d', expand {} (.text "client") { name := "b", volume := "/disks//b.qcow2/", nvram := some "" } =
      .ok d' := ⟨_, rfl⟩
  have hnvram : d.nvram = some "/var/lib/libvirt/qemu/nvram/...nvram" := by
    rw [nvram_of_expand hd rfl]
    decide
  have hnvram' : d'.nvram = some "/var/lib/libvirt/qemu/nvram/b.nvram" := by
    rw [nvram_of_expand hd' rfl]
    decide
  obtain ⟨store, store', hstore, hstore', hlies, -, hdistinct⟩ := places_variableStores hd hd' rfl rfl
  have hstems : store ≠ store' := hdistinct.2 (by decide)
  refine ⟨d, d', hd, hd', ?_, hnvram, hnvram', ?_⟩
  · rw [hstore, hstore']
    exact fun h => hstems (Option.some.inj h)
  · obtain rfl := Option.some.inj (hstore.symm.trans hnvram)
    exact hlies

/-- **Different volumes may share a variable store**: only their last suffixes differ. -/
theorem shares_variableStore : ∃ d d' : Domain,
    expand {} (.text "server") { name := "a", volume := "dc01.qcow2" } = .ok d ∧
    expand {} (.text "server") { name := "b", volume := "dc01.raw" } = .ok d' ∧
    "dc01.qcow2" ≠ "dc01.raw" ∧ d.nvram = some "/var/lib/libvirt/qemu/nvram/dc01.nvram" ∧ d.nvram = d'.nvram :=
  ⟨_, _, rfl, rfl, by decide, rfl, rfl⟩

end GuestSettings

end VirtualTopology
