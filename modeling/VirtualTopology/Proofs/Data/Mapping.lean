import VirtualTopology.Proofs.Topology.Validation

/-!
# Mappings with text keys

A text key is the same key as no other scalar, so a mapping is seen through `Mapping.at?` as a function of texts. One law
says what giving a key a value does to this view (`Mapping.at?_put`). Which keys a mapping has does not depend on the
values that they are given (`Mapping.keys_put`), and a record is refused for its keys alone (`Reading.sealed_eq_valid_iff`).
-/

namespace VirtualTopology

theorem Scalar.same_text_iff {k : Scalar} {t : String} : k.same (.text t) = true ↔ k = .text t := by
  cases k with
  | text s => simp [same, integer?]
  | float x => cases hx : x.toInt? <;> simp [same, integer?, hx]
  | null | bool | int | octets | moment => simp [same, integer?]

namespace Mapping

@[simp] theorem at?_nil (key : String) : at? [] key = none := rfl

theorem at?_cons (k : Scalar) (d : Data) (m : Mapping) (key : String) :
    at? ((k, d) :: m) key = if k = .text key then some d else at? m key := by
  rw [at?, get?, List.find?_cons]
  by_cases hk : k = .text key
  · have hsame : k.same (.text key) = true := Scalar.same_text_iff.2 hk
    simp [hk, hk ▸ hsame]
  · have hother : k.same (.text key) = false := by simpa using mt Scalar.same_text_iff.1 hk
    simp [hk, hother, at?, get?]

/-- **A key has the value that it was given last.** -/
theorem at?_put (m : Mapping) (key other : String) (d : Data) :
    (m.put (.text key) d).at? other = if key = other then some d else m.at? other := by
  induction m with
  | nil => simp [put, at?_cons]
  | cons e m ih =>
    obtain ⟨k, v⟩ := e
    rw [put]
    split
    · next hsame =>
      rw [Scalar.same_text_iff] at hsame
      subst hsame
      simp only [at?_cons, Scalar.text.injEq]
      split <;> rfl
    · next hother =>
      rw [Scalar.same_text_iff] at hother
      rw [at?_cons, at?_cons, ih]
      by_cases hk : k = .text other
      · have hne : key ≠ other := fun h => hother (h ▸ hk)
        simp [hk, hne]
      · simp [hk]

/-- The keys do not depend on the value that is given. -/
theorem keys_put (m : Mapping) (key : Scalar) (d d' : Data) :
    (m.put key d).map (·.1) = (m.put key d').map (·.1) := by
  induction m with
  | nil => rfl
  | cons e m ih =>
    rw [put, put]
    split
    · rfl
    · rw [List.map_cons, List.map_cons, ih]

theorem mem_put {m : Mapping} {key : String} {d : Data} {e : Scalar × Data} (h : e ∈ m.put (.text key) d) :
    e.1 = .text key ∨ e ∈ m := by
  induction m with
  | nil =>
    obtain rfl := List.mem_singleton.1 h
    exact .inl rfl
  | cons f m ih =>
    rw [put] at h
    split at h
    · next hsame =>
      rcases List.mem_cons.1 h with rfl | h
      · exact .inl (Scalar.same_text_iff.1 hsame)
      · exact .inr (List.mem_cons_of_mem _ h)
    · rcases List.mem_cons.1 h with rfl | h
      · exact .inr List.mem_cons_self
      · exact (ih h).imp_right (List.mem_cons_of_mem _)

end Mapping

namespace Reading

variable {α : Type} {keys : List String} {m m' : Mapping} {body : Checked α} {a : α}

/-- Whether a record with some keys takes a mapping, as far as its keys go. -/
def Admits (keys : List String) (m : Mapping) : Prop :=
  (∀ e ∈ m, isBrokenKey e.1 = false) ∧ ∀ e ∈ m, ∃ k ∈ keys, e.1 = .text k

theorem strangers_eq_nil_iff : strangers keys m = [] ↔ ∀ e ∈ m, ∃ k ∈ keys, e.1 = .text k := by
  rw [strangers, List.filterMap_eq_nil_iff]
  refine forall₂_congr fun e _ => ?_
  cases e.1 <;> simp

theorem sealed_eq_valid_iff : Reading.sealed keys m body = .valid a ↔ Admits keys m ∧ body = .valid a := by
  rw [Admits, ← strangers_eq_nil_iff]
  unfold Reading.sealed
  by_cases hbroken : (m.any fun e => isBrokenKey e.1) = true
  · have hne : ¬ ∀ e ∈ m, isBrokenKey e.1 = false := by simpa using hbroken
    rw [if_pos hbroken]
    exact ⟨nofun, fun h => absurd h.1.1 hne⟩
  · have hwhole : ∀ e ∈ m, isBrokenKey e.1 = false := by simpa using hbroken
    rw [if_neg hbroken, and_iff_right hwhole]
    cases strangers keys m with
    | nil => simp
    | cons => exact ⟨nofun, fun h => absurd h.1 (List.cons_ne_nil _ _)⟩

/-- Records are refused for their keys alone. -/
theorem Admits.congr (h : m.map (·.1) = m'.map (·.1)) : Admits keys m ↔ Admits keys m' := by
  have hforall (p : Scalar → Prop) : (∀ e ∈ m, p e.1) ↔ ∀ e ∈ m', p e.1 := by
    have hkeys : (∀ k ∈ m.map (·.1), p k) ↔ ∀ k ∈ m'.map (·.1), p k := by rw [h]
    simpa only [List.forall_mem_map] using hkeys
  exact and_congr (hforall fun k => isBrokenKey k = false) (hforall fun k => ∃ key ∈ keys, k = .text key)

/-- A key of the record may be given a value. -/
theorem Admits.put {key : String} (h : Admits keys m) (hkey : key ∈ keys) (hwhole : Text.holdsHalf key = false) (d : Data) :
    Admits keys (m.put (.text key) d) := by
  refine ⟨fun e he => ?_, fun e he => ?_⟩
  · rcases Mapping.mem_put he with hput | hmem
    · rw [hput]
      exact hwhole
    · exact h.1 e hmem
  · rcases Mapping.mem_put he with hput | hmem
    · exact ⟨key, hkey, hput⟩
    · exact h.2 e hmem

theorem record_eq_valid_iff {body : Mapping → Checked α} {d : Data} :
    record body d = .valid a ↔ ∃ m, d.untied = .mapping m ∧ body m = .valid a := by
  unfold record
  split
  · next m hm => simp [hm]
  · next hother => exact ⟨nofun, fun ⟨m, hm, _⟩ => absurd hm (hother m)⟩

variable {r : Reading α} {key : String} {value : α}

/-- **A field with a default** is read from its key, and is the default without one. -/
theorem defaulted_eq_valid_iff : defaulted m key value r = .valid a ↔
    m.at? key = none ∧ a = value ∨ ∃ d, m.at? key = some d ∧ r d = .valid a := by
  rw [defaulted, Checked.under_eq_valid_iff]
  cases m.at? key with
  | none => simp [eq_comm]
  | some d => simp

theorem required_put_of_ne {other : String} (h : other ≠ key) (m : Mapping) (d : Data) :
    required (m.put (.text other) d) key r = required m key r := by
  rw [required, Mapping.at?_put, if_neg h]
  rfl

theorem defaulted_put_of_ne {other : String} (h : other ≠ key) (m : Mapping) (d : Data) :
    defaulted (m.put (.text other) d) key value r = defaulted m key value r := by
  rw [defaulted, Mapping.at?_put, if_neg h]
  rfl

/-- A field that is given a value is read from it. -/
theorem defaulted_put (m : Mapping) (d : Data) :
    defaulted (m.put (.text key) d) key value r = (r d).under (.key key) := by
  rw [defaulted, Mapping.at?_put, if_pos rfl]
  rfl

end Reading

end VirtualTopology
