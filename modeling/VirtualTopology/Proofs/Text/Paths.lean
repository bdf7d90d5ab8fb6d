import Mathlib.Data.List.Basic
import VirtualTopology.PosixPath

/-!
# Paths and their texts

A path in normal form is a root and a list of names, each of them a text without slashes that is neither empty nor a single
point (`PosixPath.IsNormal`). Its text is read as the path that it was (`PosixPath.ofText_text`), so that paths in normal
form are equal if their texts are. What is read of any text is in normal form (`PosixPath.isNormal_ofText`).

The stem of a path is its last name without a suffix. It has no slashes, whatever the path was written as.
-/

namespace VirtualTopology.PosixPath

variable {cs front suffix : List Char} {names : List String} {p q : PosixPath} {name s : String}

/-! ### Segments -/

theorem segments_eq_splitOn (cs : List Char) : segments cs = cs.splitOn '/' := by
  induction cs with
  | nil => rfl
  | cons c cs ih =>
    unfold segments
    rw [List.splitOn_cons_eq_if_modifyHead, ← ih]
    by_cases hslash : c = '/'
    · subst hslash
      simp
    · cases hsegments : segments cs with
      | nil => exact absurd (ih ▸ hsegments) (List.splitOn_ne_nil _ _)
      | cons => simp [hslash]

theorem flat_of_mem_segments (h : front ∈ segments cs) : '/' ∉ front := by
  induction cs generalizing front with
  | nil =>
    obtain rfl := List.mem_singleton.1 h
    exact nofun
  | cons c cs ih =>
    unfold segments at h
    split at h
    · rcases List.mem_cons.1 h with rfl | h
      · exact nofun
      · exact ih h
    · next hother _ =>
      obtain rfl := List.mem_singleton.1 h
      simpa [eq_comm] using hother
    · next hother heq =>
      rcases List.mem_cons.1 h with rfl | h
      · simpa [eq_comm, ih (heq ▸ List.mem_cons_self)] using hother
      · exact ih (heq ▸ List.mem_cons_of_mem _ h)

/-! ### Names -/

/-- Whether a text is one name of a path. -/
structure IsName (name : String) : Prop where
  flat : '/' ∉ name.toList
  ne_empty : name ≠ ""
  ne_point : name ≠ "."

/-- Whether all names of a path are names. -/
def IsNormal (p : PosixPath) : Prop := ∀ name ∈ p.names, IsName name

/-- **What is read is in normal form.** -/
theorem isNormal_ofText (s : String) : (ofText s).IsNormal := by
  intro name hname
  obtain ⟨segment, hsegment, rfl⟩ := List.mem_map.1 hname
  obtain ⟨hmem, hkept⟩ := List.mem_filter.1 hsegment
  simp only [Bool.and_eq_true, Bool.not_eq_true', List.isEmpty_eq_false_iff, bne_iff_ne] at hkept
  refine ⟨?_, fun hempty => hkept.1 ?_, fun hpoint => hkept.2 ?_⟩
  · rw [String.toList_ofList]
    exact flat_of_mem_segments hmem
  · exact String.ofList_eq_empty_iff.1 hempty
  · exact String.ofList_injective hpoint

theorem namesOf_slash (cs : List Char) : namesOf ('/' :: cs) = namesOf cs := by
  have hsegments : segments ('/' :: cs) = [] :: segments cs := by simp [segments]
  rw [namesOf, hsegments]
  rfl

/-- Names with slashes between them are read as these names. -/
theorem namesOf_intercalate (h : ∀ name ∈ names, IsName name) :
    namesOf (['/'].intercalate (names.map String.toList)) = names := by
  cases names with
  | nil => rfl
  | cons name names =>
    have hflat : ∀ cs ∈ (name :: names).map String.toList, '/' ∉ cs := List.forall_mem_map.2 fun n hn => (h n hn).flat
    have hkept : ∀ cs ∈ (name :: names).map String.toList, (!cs.isEmpty && cs != ['.']) = true := by
      refine List.forall_mem_map.2 fun n hn => ?_
      have hpoint : n.toList ≠ ['.'] := fun heq => (h n hn).ne_point (String.toList_injective heq)
      simp [(h n hn).ne_empty, hpoint]
    rw [namesOf, segments_eq_splitOn, List.splitOn_intercalate _ hflat (by simp), List.filter_eq_self.2 hkept, List.map_map]
    exact (List.map_congr_left fun n _ => String.ofList_toList).trans (List.map_id' _)

/-! ### Texts -/

/-- The text of names does not begin with a slash. -/
theorem intercalate_ne_slash (h : ∀ name ∈ names, IsName name) (cs : List Char) :
    ['/'].intercalate (names.map String.toList) ≠ '/' :: cs := by
  cases names with
  | nil => exact nofun
  | cons name names =>
    have hname := h name List.mem_cons_self
    intro heq
    cases hchars : name.toList with
    | nil => exact hname.ne_empty (String.toList_eq_nil_iff.1 hchars)
    | cons c rest =>
      have hslash : c = '/' := by
        rw [List.map_cons, hchars] at heq
        cases names with
        | nil => simpa using (List.cons.inj heq).1
        | cons => simpa [List.intercalate_cons_cons] using (List.cons.inj heq).1
      exact hname.flat (by simp [hchars, hslash])

theorem rootOf_relative (h : ∀ rest, cs ≠ '/' :: rest) : rootOf cs = .relative := by
  unfold rootOf
  split
  · exact absurd rfl (h _)
  · exact absurd rfl (h _)
  · exact absurd rfl (h _)
  · rfl

theorem rootOf_slash (h : ∀ rest, cs ≠ '/' :: rest) : rootOf ('/' :: cs) = .slash := by
  unfold rootOf
  split
  · rfl
  · next heq => exact absurd (List.cons.inj heq).2 (h _)
  · rfl
  · next hother => exact absurd rfl (hother _)

theorem rootOf_doubleSlash (h : ∀ rest, cs ≠ '/' :: rest) : rootOf ('/' :: '/' :: cs) = .doubleSlash := by
  unfold rootOf
  split
  · next heq => exact absurd (List.cons.inj (List.cons.inj heq).2).2 (h _)
  · rfl
  · next hother heq => exact absurd (List.cons.inj heq).2.symm (hother _)
  · next hother => exact absurd rfl (hother _)

/-- **The text of a path in normal form is read as that path.** -/
theorem ofText_text (h : p.IsNormal) : ofText p.text = p := by
  obtain ⟨root, names⟩ := p
  have hchars : ("/".intercalate names).toList = ['/'].intercalate (names.map String.toList) := by
    rw [String.toList_intercalate]
    rfl
  have hnames : namesOf ("/".intercalate names).toList = names := by rw [hchars, namesOf_intercalate h]
  have hhead : ∀ rest, ("/".intercalate names).toList ≠ '/' :: rest := by
    rw [hchars]
    exact intercalate_ne_slash h
  -- since the names do not begin with a slash, the slashes in front of them are those of the root
  cases root with
  | relative =>
    cases names with
    | nil => rfl
    | cons => rw [text, List.isEmpty_cons, if_neg Bool.false_ne_true, ofText, rootOf_relative hhead, hnames]
  | slash =>
    rw [text, ofText, String.toList_append]
    exact congrArg₂ mk (rootOf_slash hhead) ((namesOf_slash _).trans hnames)
  | doubleSlash =>
    rw [text, ofText, String.toList_append]
    exact congrArg₂ mk (rootOf_doubleSlash hhead) ((namesOf_slash _).trans ((namesOf_slash _).trans hnames))

/-- Paths in normal form are equal if their texts are. -/
theorem text_inj (hp : p.IsNormal) (hq : q.IsNormal) : p.text = q.text ↔ p = q := by
  refine ⟨fun h => ?_, congrArg text⟩
  rw [← ofText_text hp, ← ofText_text hq, h]

/-- A name by itself is a path of one name. -/
theorem IsName.ofText_eq (h : IsName name) : ofText name = ⟨.relative, [name]⟩ := by
  have hnormal : IsNormal ⟨.relative, [name]⟩ := by simpa [IsNormal] using h
  have htext : text ⟨.relative, [name]⟩ = name := by
    rw [text, List.isEmpty_cons, if_neg Bool.false_ne_true]
    exact String.intercalate_singleton
  exact htext ▸ ofText_text hnormal

/-- What ends in a longer suffix without slashes is a name. -/
theorem IsName.of_append {suffix : String} (hfront : '/' ∉ s.toList) (hsuffix : '/' ∉ suffix.toList)
    (hlong : 1 < suffix.toList.length) : IsName (s ++ suffix) := by
  have hshort : ∀ short : String, short.toList.length ≤ 1 → s ++ suffix ≠ short := by
    rintro _ hshort rfl
    rw [String.toList_append, List.length_append] at hshort
    omega
  exact ⟨by simp [hfront, hsuffix], hshort _ (by decide), hshort _ (by decide)⟩

/-- A path has a text, even if nothing was written. -/
theorem text_ofText_ne_empty (written : String) : (ofText written).text ≠ "" := by
  intro h
  -- an empty text is read as the path without names, and that path is written as a point
  have hread := ofText_text (isNormal_ofText written)
  rw [h] at hread
  rw [← hread] at h
  exact absurd h (by decide)

/-! ### Stems -/

theorem mem_of_mem_stemOf {c : Char} (h : c ∈ stemOf cs) : c ∈ cs := by
  unfold stemOf at h
  split at h
  · exact h
  · next before heq =>
    split at h
    · exact h
    · have hmem : c ∈ cs.reverse.dropWhile (· != '.') := by
        rw [heq]
        exact List.mem_cons_of_mem _ (List.mem_reverse.1 h)
      exact List.mem_reverse.1 ((List.dropWhile_sublist _).mem hmem)

/-- **The stem of a path has no slashes**, whatever was written. -/
theorem flat_stem (s : String) : '/' ∉ (ofText s).stem.toList := by
  rw [stem, String.toList_ofList]
  intro h
  have hmem := mem_of_mem_stemOf h
  rw [name, List.getLastD_eq_getLast?] at hmem
  cases hlast : (ofText s).names.getLast? with
  -- a path without names has an empty stem
  | none => exact absurd (hlast ▸ hmem) (by decide)
  | some last =>
    rw [hlast] at hmem
    exact (isNormal_ofText s last (List.mem_of_getLast? hlast)).flat hmem

/-- The stem is what stands before the last point, if there is something on both sides of it. -/
theorem stemOf_eq (hfront : front ≠ []) (hsuffix : suffix ≠ []) (hflat : '.' ∉ suffix) :
    stemOf (front ++ '.' :: suffix) = front := by
  -- from behind, the suffix is passed over, and then the point
  have hbehind : (front ++ '.' :: suffix).reverse.dropWhile (· != '.') = '.' :: front.reverse := by
    have hall : ∀ c ∈ suffix.reverse, (c != '.') = true := by
      intro c hc
      rw [bne_iff_ne]
      rintro rfl
      exact hflat (List.mem_reverse.1 hc)
    rw [List.reverse_append, List.reverse_cons, List.append_assoc, List.dropWhile_append_of_pos hall]
    rfl
  have hlast : ¬ ('.' :: suffix).getLast? = some '.' := by
    rw [List.getLast?_cons_of_ne_nil hsuffix]
    exact fun h => hflat (List.mem_of_getLast? h)
  unfold stemOf
  rw [hbehind]
  dsimp only
  rw [if_neg, List.reverse_reverse]
  simp [hfront, hlast]

/-- The stem of a plain name is what stands before its suffix. -/
theorem stem_ofText {front suffix : String} (hfront : '/' ∉ front.toList) (hsuffix : '/' ∉ suffix.toList)
    (hsome : front ≠ "") (hpoint : '.' ∉ suffix.toList) (hne : suffix ≠ "") :
    (ofText (front ++ ("." ++ suffix))).stem = front := by
  have hlong : 1 < ("." ++ suffix).toList.length := by
    have hpositive : suffix.toList.length ≠ 0 := by simpa using hne
    rw [String.toList_append, List.length_append]
    simp only [String.reduceToList, List.length_singleton]
    omega
  have hname : IsName (front ++ ("." ++ suffix)) := .of_append hfront (by simpa using hsuffix) hlong
  have hchars : (front ++ ("." ++ suffix)).toList = front.toList ++ '.' :: suffix.toList := by simp
  rw [hname.ofText_eq]
  show String.ofList (stemOf (front ++ ("." ++ suffix)).toList) = front
  rw [hchars, stemOf_eq (by simpa using hsome) (by simpa using hne) hpoint, String.ofList_toList]

/-! ### Files in a directory -/

/-- Whether a path is that of a file directly in a directory: there is one name behind the directory, which is no step up. -/
def LiesIn (p directory : PosixPath) : Prop :=
  ∃ name, IsName name ∧ name ≠ ".." ∧ p = ⟨directory.root, directory.names ++ [name]⟩

/-- A name in a directory that was read makes a path in normal form. -/
theorem isNormal_concat (h : IsName name) (hp : p.IsNormal) : IsNormal ⟨p.root, p.names ++ [name]⟩ := by
  intro other hother
  rcases List.mem_append.1 hother with hmem | hmem
  · exact hp other hmem
  · exact List.mem_singleton.1 hmem ▸ h

end VirtualTopology.PosixPath
