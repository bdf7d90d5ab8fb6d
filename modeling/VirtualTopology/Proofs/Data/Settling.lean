import VirtualTopology.Proofs.Document.Legible
import VirtualTopology.Proofs.Topology.Validation

/-!
# Readings that settle

Reading is lenient: a number may be given as a text, a truth value as a word, an identifier in four spellings.
What was read is written in one way only, and a reading *settles* if it reads this form, and reads the same
value from it (`Reading.Settles`).

Single values settle (`settles_text`, `settles_name` and so on), and so do optional values and lists of what settles.
A record is read from its fields, so each field that was read or left to its default is read again from the record
that is written (`Settles.required`, `Settles.defaulted`).
-/

namespace VirtualTopology

namespace Reading

open Checked

variable {α : Type}

/-- Whether a reading reads each value that it gives from the written form of the value. -/
def Settles (r : Reading α) (write : α → Data) : Prop := ∀ d a, r d = .valid a → r (write a) = .valid a

/-! ### Single values -/

theorem settles_text : Settles text .text := fun _ _ _ => rfl

/-- Characters that are read hold no half of a pair. -/
theorem holdsHalf_of_characters {other broken : Mismatch} {s : Scalar} {t : String}
    (h : characters other broken s = .valid t) : Text.holdsHalf t = false := by
  unfold characters at h
  split at h
  · split at h
    · exact nomatch h
    · next hhalf =>
      obtain rfl := Checked.valid.inj h
      simpa using hhalf
  · next os =>
    cases hread : (String.fromUTF8? ⟨os.toArray⟩).filter (!Text.holdsHalf ·) with
    | none => rw [hread] at h; exact nomatch h
    | some u =>
      rw [hread] at h
      obtain rfl := Checked.valid.inj h
      simpa using (Option.filter_eq_some_iff.1 hread).2
  · exact nomatch h

/-- A name has at least one character, and no half of a pair. -/
theorem whole_of_name {d : Data} {s : String} (h : name d = .valid s) :
    s ≠ "" ∧ Text.holdsHalf s = false := by
  unfold name at h
  split at h
  · obtain ⟨t, ht, hname⟩ := andThen_eq_valid_iff.1 h
    split at hname
    · exact nomatch hname
    · next hempty =>
      obtain rfl := Checked.valid.inj hname
      exact ⟨by simpa using hempty, holdsHalf_of_characters ht⟩
  · exact nomatch h

theorem settles_name : Settles name .text := by
  intro d s h
  obtain ⟨hne, hhalf⟩ := whole_of_name h
  simp [name, characters, hhalf, hne]

theorem settles_bool : Settles bool .bool := fun _ _ _ => rfl

theorem settles_natural : Settles natural fun n => .int n := by
  intro d n _
  have hsign : ¬ ((n : Int) < 0) := by omega
  simp [natural, integer, hsign]

theorem settles_integerIn (low high : Int) : Settles (integerIn low high) .int := by
  intro d i h
  obtain ⟨j, -, hbounds⟩ := andThen_eq_valid_iff.1 h
  split at hbounds
  · exact nomatch hbounds
  · split at hbounds
    · exact nomatch hbounds
    · next hlow hhigh =>
      obtain rfl := Checked.valid.inj hbounds
      simp [integerIn, integer, hlow, hhigh]

theorem settles_identifier : Settles identifier fun i => .text i.text := by
  intro d i _
  have hhalf : Text.holdsHalf i.text = false := by
    rw [Text.holdsHalf, List.any_eq_false]
    intro c hc
    have hvisible : Text.isVisible c = true := isVisible_identifier i c hc
    simp only [Text.isVisible, Bool.and_eq_true, decide_eq_true_eq] at hvisible
    have hsmall : ¬ Text.halfOffset ≤ c.toNat := by
      rw [Text.halfOffset]
      omega
    simp [Text.isHalf, hsmall]
  simp [identifier, characters, hhalf, Identifier.ofText?_text]

theorem settles_address : Settles address fun a => .text a.text := by
  intro d a _
  simp [address, Address.ofText?_text]

/-- What is read as one of several words is the value of one of them. -/
theorem mem_of_among {options : List (String × α)} {d : Data} {a : α} (h : among options d = .valid a) :
    ∃ word, (word, a) ∈ options := by
  unfold among at h
  split at h
  · split at h
    · next t _ =>
      cases hfound : options.lookup t with
      | none => rw [hfound] at h; exact nomatch h
      | some b =>
        rw [hfound] at h
        obtain rfl := Checked.valid.inj h
        obtain ⟨front, back, rfl, -⟩ := List.lookup_eq_some_iff.1 hfound
        exact ⟨t, by simp⟩
    · exact nomatch h
  · exact nomatch h

/-- **One of several words** settles if the words are those that are written. -/
theorem settles_among {options : List α} {word : α → String}
    (hread : ∀ a ∈ options, among (options.map fun a => (word a, a)) (.text (word a)) = .valid a) :
    Settles (among (options.map fun a => (word a, a))) fun a => .text (word a) := by
  intro d a h
  obtain ⟨w, hw⟩ := mem_of_among h
  obtain ⟨b, hb, heq⟩ := List.mem_map.1 hw
  obtain rfl : b = a := (Prod.mk.inj heq).2
  exact hread b hb

/-! ### Collections -/

/-- A list is read if its members are. -/
theorem list_map {r : Reading α} {write : α → Data} {as : List α} (h : ∀ a ∈ as, r (write a) = .valid a) :
    list r (.list (as.map write)) = .valid as := by
  have hitems : ∀ place, items r place (as.map write) = .valid as := by
    induction as with
    | nil => exact fun _ => rfl
    | cons a as ih =>
      intro place
      rw [List.map_cons, items, h a (by simp), ih fun b hb => h b (by simp [hb])]
      rfl
  exact hitems 0

namespace Settles

variable {r : Reading α} {write : α → Data} (hr : r.Settles write)

include hr

/-- An optional value is written as null if it is not there, so that nothing else may be written as null. -/
theorem optional (hne : ∀ a, write a ≠ .null) :
    Settles (optional r) fun o => (o.map write).getD .null := by
  intro d o h
  cases o with
  | none => rfl
  | some a =>
    obtain ⟨e, he⟩ := read_of_optional h
    have hwritten := hr e a he
    show Reading.optional r (write a) = .valid (some a)
    unfold Reading.optional
    split
    · next hnull => exact absurd hnull (hne a)
    · rw [hwritten]
      rfl

theorem list : Settles (list r) fun as => .list (as.map write) :=
  fun _ _ h => list_map (forall_of_list hr h)

end Settles

/-- An optional value that is written as a text. -/
theorem Settles.optionalWord {word : α → String} {r : Reading α} (hr : r.Settles fun a => .text (word a)) :
    Settles (Reading.optional r) fun o => .text? (o.map word) := by
  intro d o h
  have hwritten := hr.optional (fun _ => nofun) d o h
  cases o with
  | none => exact hwritten
  | some a => exact hwritten

theorem Settles.optionalText {r : Reading String} (hr : r.Settles .text) : Settles (Reading.optional r) .text? := by
  simpa using hr.optionalWord

/-! ### Checks -/

/-- A reading that checks what another one gives settles, if the check changes nothing. -/
theorem Settles.checked {r : Reading α} {write : α → Data} {check : α → Checked α} (hr : r.Settles write)
    (hcheck : ∀ a b, check a = .valid b → b = a) : Settles (fun d => (r d).andThen check) write := by
  intro d b h
  obtain ⟨a, ha, hb⟩ := andThen_eq_valid_iff.1 h
  obtain rfl := hcheck a b hb
  show (r (write b)).andThen check = .valid b
  rw [hr d b ha, andThen_valid, hb]

/-! ### Records -/

/-- The mapping of a record. -/
def entriesOf (fields : List (String × Data)) : Mapping := fields.map fun f => (.text f.1, f.2)

theorem at?_entriesOf (fields : List (String × Data)) (key : String) :
    Mapping.at? (entriesOf fields) key = fields.lookup key := by
  induction fields with
  | nil => rfl
  | cons f fields ih =>
    have hsame : (Scalar.text f.1).same (.text key) = (key == f.1) := by
      simp [Scalar.same, Scalar.integer?, Bool.beq_comm]
    rw [List.lookup_cons, entriesOf, List.map_cons, Mapping.at?, Mapping.get?, List.find?_cons, hsame]
    cases key == f.1 with
    | true => rfl
    | false => exact ih

/-- A record that is written with the keys that are read has no other keys. -/
theorem sealed_entriesOf {keys : List String} {fields : List (String × Data)} (hkeys : fields.map (·.1) = keys)
    (hwhole : keys.any Text.holdsHalf = false) (body : Checked α) :
    Reading.sealed keys (entriesOf fields) body = body := by
  have hunbroken : (entriesOf fields).any (fun e => isBrokenKey e.1) = false := by
    rw [← hwhole, ← hkeys, entriesOf, List.any_map, List.any_map]
    rfl
  have hknown : strangers keys (entriesOf fields) = [] := by
    rw [strangers, entriesOf, List.filterMap_map, List.filterMap_eq_nil_iff]
    intro f hf
    have hkey : f.1 ∈ keys := hkeys ▸ List.mem_map_of_mem hf
    simp [hkey]
  simp [Reading.sealed, hunbroken, hknown]

variable {r : Reading α} {write : α → Data} {m : Mapping} {fields : List (String × Data)} {key : String}
  {a value : α} {d : Data}

theorem required_entriesOf (hfield : fields.lookup key = some d) (h : r d = .valid a) :
    Reading.required (entriesOf fields) key r = .valid a := by
  rw [Reading.required, at?_entriesOf, hfield, Option.elim_some, h, under_valid]

theorem defaulted_entriesOf (hfield : fields.lookup key = some d) (h : r d = .valid a) :
    Reading.defaulted (entriesOf fields) key value r = .valid a := by
  rw [Reading.defaulted, at?_entriesOf, hfield, Option.elim_some, h, under_valid]

namespace Settles

/-- A field that had to be there is read again. -/
theorem required (hr : r.Settles write) (h : Reading.required m key r = .valid a)
    (hfield : fields.lookup key = some (write a)) : Reading.required (entriesOf fields) key r = .valid a := by
  obtain ⟨d, hd⟩ := read_of_required h
  exact required_entriesOf hfield (hr d a hd)

/-- A field that was read or left to its default is read again, if the default is. -/
theorem defaulted (hr : r.Settles write) (hvalue : r (write value) = .valid value)
    (h : Reading.defaulted m key value r = .valid a) (hfield : fields.lookup key = some (write a)) :
    Reading.defaulted (entriesOf fields) key value r = .valid a := by
  refine defaulted_entriesOf hfield ?_
  rcases eq_or_read_of_defaulted h with rfl | ⟨d, hd⟩
  · exact hvalue
  · exact hr d a hd

/-- **A record settles** if it is written with all its keys, and its fields are read again. -/
theorem record {keys : List String} {body : Mapping → Checked α} {fields : α → List (String × Data)}
    (hkeys : ∀ a, (fields a).map (·.1) = keys) (hwhole : keys.any Text.holdsHalf = false)
    (hbody : ∀ m a, body m = .valid a → body (entriesOf (fields a)) = .valid a) :
    Settles (Reading.record fun m => Reading.sealed keys m (body m)) fun a => .record (fields a) := by
  intro d a h
  obtain ⟨m, hm⟩ := eq_valid_of_record h
  show Reading.sealed keys (entriesOf (fields a)) _ = _
  rw [sealed_entriesOf (hkeys a) hwhole]
  exact hbody m a (eq_valid_of_sealed hm)

end Settles

end Reading

end VirtualTopology
