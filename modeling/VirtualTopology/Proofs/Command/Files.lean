import Mathlib.Data.List.Induction
import VirtualTopology.Command.Workspace

/-!
# Files that are written

A path leads to a place at which a file can be written, or to none (`Workspace.target?`), and what is read from it is the text
at its place (`Workspace.read?_of_target?`). Writing a file changes that text, and nothing else: the places to which paths
lead stay as they are (`Workspace.target?_put`). That is so because the way to the place goes through directories that are
there already.

Making a directory leaves all files alone (`Workspace.text?_withDirectories`), and the directory is there afterwards
(`Workspace.follow_withDirectories`).
-/

namespace VirtualTopology

namespace Located

/-- The place at which a file can be written, where a path leads to one. -/
def place? : Located → Option (List String)
  | file place _ | free place => some place
  | _ => none

end Located

namespace Workspace

variable {w w' : Workspace} {place q front : List String} {text name : String} {names : List String} {a b : Located}
  {p : PosixPath}

/-- The place of the file that is written to a path. -/
def target? (w : Workspace) (p : PosixPath) : Option (List String) := (w.locatePath p).place?

theorem write?_eq (w : Workspace) (p : PosixPath) (text : String) : w.write? p text = (w.target? p).map (w.put · text) := by
  unfold write? target?
  cases w.locatePath p <;> rfl

/-! ### What is there -/

theorem text?_put : (w.put place text).text? q = if q = place then some text else w.text? q := by
  unfold text? put
  rw [List.find?_append]
  by_cases hq : q = place
  · -- the file that was there is taken out, so the new one is the first that is found
    subst hq
    have hnone : (w.files.filter fun f => f.1 != q).find? (·.1 == q) = none := by
      rw [List.find?_eq_none]
      exact fun f hf => by simpa using (List.mem_filter.1 hf).2
    simp [hnone]
  · -- files elsewhere are not taken out
    have hsame : (w.files.filter fun f => f.1 != place).find? (·.1 == q) = w.files.find? (·.1 == q) := by
      rw [List.find?_filter]
      congr 1
      funext f
      by_cases hf : f.1 = q <;> simp [hf, hq]
    rw [hsame, if_neg hq]
    simp [Ne.symm hq]

theorem hasDirectory_iff : w.hasDirectory q = true ↔
    q = [] ∨ (∃ r ∈ w.directories, q <+: r) ∨ ∃ f ∈ w.files, q ≠ f.1 ∧ q <+: f.1 := by
  simp [hasDirectory, or_assoc]

/-- What leads to a directory are directories. -/
theorem hasDirectory_of_prefix (h : w.hasDirectory place = true) (hq : q <+: place) : w.hasDirectory q = true := by
  rw [hasDirectory_iff] at *
  rcases h with rfl | ⟨r, hr, hplace⟩ | ⟨f, hf, hne, hplace⟩
  · exact .inl (List.prefix_nil.1 hq)
  · exact .inr (.inl ⟨r, hr, hq.trans hplace⟩)
  · -- a directory that leads to a file is not the file itself
    refine .inr (.inr ⟨f, hf, ?_, hq.trans hplace⟩)
    rintro rfl
    exact hne (hplace.eq_of_length (Nat.le_antisymm hplace.length_le hq.length_le))

/-- A file in a directory that is there makes no directory. -/
theorem hasDirectory_put (hfront : w.hasDirectory front = true) :
    (w.put (front ++ [name]) text).hasDirectory q = w.hasDirectory q := by
  rw [Bool.eq_iff_iff]
  constructor
  · rw [hasDirectory_iff]
    rintro (rfl | hdirectory | ⟨f, hf, hne, hq⟩)
    · exact hasDirectory_iff.2 (.inl rfl)
    · exact hasDirectory_iff.2 (.inr (.inl hdirectory))
    · rcases List.mem_append.1 hf with hf | hf
      · exact hasDirectory_iff.2 (.inr (.inr ⟨f, (List.mem_filter.1 hf).1, hne, hq⟩))
      · -- what leads to the new file leads to the directory in which it is
        obtain rfl := List.mem_singleton.1 hf
        exact hasDirectory_of_prefix hfront ((List.prefix_concat_iff.1 hq).resolve_left hne)
  · rw [hasDirectory_iff, hasDirectory_iff]
    rintro (rfl | hdirectory | ⟨f, hf, hne, hq⟩)
    · exact .inl rfl
    · exact .inr (.inl hdirectory)
    · -- the text of the file may be another one now
      by_cases hplace : f.1 = front ++ [name]
      · exact .inr (.inr ⟨(front ++ [name], text), List.mem_append_right _ List.mem_cons_self, hplace ▸ hne, hplace ▸ hq⟩)
      · exact .inr (.inr ⟨f, List.mem_append_left _ (List.mem_filter.2 ⟨hf, bne_iff_ne.2 hplace⟩), hne, hq⟩)

/-! ### Where paths lead -/

/-- What a path can be at: a directory that is there, or a place in one. -/
def Reaches (w : Workspace) : Located → Prop
  | .directory q => w.hasDirectory q = true
  | .file q text => w.text? q = some text ∧ ∃ front name, q = front ++ [name] ∧ w.hasDirectory front = true
  | .free q => w.text? q = none ∧ w.hasDirectory q = false ∧ ∃ front name, q = front ++ [name] ∧ w.hasDirectory front = true
  | _ => True

/-- From a directory a name leads to a place in it, or it leads to the same whatever is there. -/
theorem step_cases (q : List String) (name : String) : (∀ w : Workspace, w.step (.directory q) name = w.at_ (q ++ [name])) ∨
    ∃ a : Located, a.place? = none ∧ ∀ w : Workspace, w.step (.directory q) name = a := by
  unfold step
  dsimp only
  split
  · exact .inr ⟨_, rfl, fun _ => rfl⟩
  · split
    · split
      · exact .inr ⟨_, rfl, fun _ => rfl⟩
      · exact .inr ⟨_, rfl, fun _ => rfl⟩
    · split
      · exact .inr ⟨_, rfl, fun _ => rfl⟩
      · exact .inl fun _ => rfl

theorem reaches_step (h : w.Reaches a) (name : String) : w.Reaches (w.step a name) := by
  unfold step
  split
  · next q =>
    split
    · exact h
    · split
      · split
        · trivial
        · exact hasDirectory_of_prefix h (List.dropLast_prefix q)
      · split
        · trivial
        · unfold at_
          split
          · next text htext => exact ⟨htext, q, name, rfl, h⟩
          · next hnone =>
            split
            · next hdirectory => exact hdirectory
            · next hfree => exact ⟨hnone, Bool.eq_false_iff.2 hfree, q, name, rfl, h⟩
  · trivial
  · trivial
  · exact h

theorem reaches_follow (names : List String) : w.Reaches (w.follow names) := by
  have hfrom (a : Located) (h : w.Reaches a) : w.Reaches (names.foldl w.step a) := by
    induction names generalizing a with
    | nil => exact h
    | cons name names ih => exact ih _ (reaches_step h name)
  exact hfrom _ (hasDirectory_iff.2 (.inl rfl))

theorem reaches_locatePath (p : PosixPath) : w.Reaches (w.locatePath p) := by
  unfold locatePath
  split
  · trivial
  · exact reaches_follow _

/-- What is read from a path is the text at its place. -/
theorem read?_of_target? (h : w.target? p = some place) : w.read? p = w.text? place := by
  have hreaches := reaches_locatePath (w := w) p
  unfold target? at h
  unfold read?
  cases hlocated : w.locatePath p with
  | file q old =>
    rw [hlocated] at h hreaches
    obtain rfl := Option.some.inj h
    exact hreaches.1.symm
  | free q =>
    rw [hlocated] at h hreaches
    obtain rfl := Option.some.inj h
    exact hreaches.1.symm
  | directory | missing | blocked | outside => rw [hlocated] at h; exact nomatch h

/-- Where a path leads before and after a file is written: to the same, unless it comes by the file. -/
inductive Behind (place : List String) (text : String) : Located → Located → Prop where
  | same {a : Located} (h : a.place? ≠ some place) : Behind place text a a
  | file (old : String) : Behind place text (.file place old) (.file place text)
  | free : Behind place text (.free place) (.file place text)
  | beyond : Behind place text .missing .blocked

theorem Behind.place?_eq (h : Behind place text a b) : b.place? = a.place? := by
  cases h <;> rfl

theorem behind_step (hfront : w.hasDirectory front = true)
    (hplace : w.text? (front ++ [name]) = none → w.hasDirectory (front ++ [name]) = false)
    (h : Behind (front ++ [name]) text a b) (next : String) :
    Behind (front ++ [name]) text (w.step a next) ((w.put (front ++ [name]) text).step b next) := by
  cases h with
  | file old => exact .same nofun
  | free => exact .beyond
  | beyond => exact .beyond
  -- before the way comes by the file it is the same, and only a step from a directory can come by it
  | same h =>
    cases a with
    | missing | blocked | outside | file | free => exact .same nofun
    | directory q =>
      rcases step_cases q next with hat | ⟨a, ha, hall⟩
      · rw [hat, hat]
        unfold at_
        rw [text?_put, hasDirectory_put hfront]
        by_cases hq : q ++ [next] = front ++ [name]
        · rw [if_pos hq, hq]
          cases htext : w.text? (front ++ [name]) with
          | some old => exact .file old
          | none =>
            rw [hplace htext]
            exact .free
        · rw [if_neg hq]
          have hne : some (q ++ [next]) ≠ some (front ++ [name]) := fun heq => hq (Option.some.inj heq)
          cases w.text? (q ++ [next]) with
          | some old => exact .same hne
          | none => cases w.hasDirectory (q ++ [next]) with
            | true => exact .same nofun
            | false => exact .same hne
      · rw [hall, hall]
        exact .same (by rw [ha]; exact nofun)

/-- The place of a file is in a directory that is there, and is none itself. -/
theorem exists_front_of_target? (h : w.target? p = some place) :
    (∃ front name, place = front ++ [name] ∧ w.hasDirectory front = true) ∧
      (w.text? place = none → w.hasDirectory place = false) := by
  have hreaches : w.Reaches (w.locatePath p) := reaches_locatePath p
  unfold target? at h
  cases hlocated : w.locatePath p with
  | file q old =>
    rw [hlocated] at h hreaches
    obtain rfl := Option.some.inj h
    exact ⟨hreaches.2, fun hnone => nomatch hnone.symm.trans hreaches.1⟩
  | free q =>
    rw [hlocated] at h hreaches
    obtain rfl := Option.some.inj h
    exact ⟨hreaches.2.2, fun _ => hreaches.2.1⟩
  | directory | missing | blocked | outside => rw [hlocated] at h; exact nomatch h

theorem behind_put (h : w.target? p = some place) (names : List String) :
    Behind place text (w.follow names) ((w.put place text).follow names) := by
  obtain ⟨⟨front, name, rfl, hfront⟩, hplace⟩ := exists_front_of_target? h
  -- by induction on the names, from any two places of which one is behind the other
  have hfrom (a b : Located) (h : Behind (front ++ [name]) text a b) :
      Behind (front ++ [name]) text (names.foldl w.step a) (names.foldl (w.put (front ++ [name]) text).step b) := by
    induction names generalizing a b with
    | nil => exact h
    | cons next names ih => exact ih _ _ (behind_step hfront hplace h next)
  exact hfrom _ _ (.same nofun)

theorem behind_locatePath (h : w.target? p = some place) (p' : PosixPath) :
    Behind place text (w.locatePath p') ((w.put place text).locatePath p') := by
  unfold locatePath
  split
  · exact .same nofun
  · exact behind_put h _

/-- **Writing a file leaves the places to which paths lead as they are.** -/
theorem target?_put (h : w.target? p = some place) (text : String) (p' : PosixPath) :
    (w.put place text).target? p' = w.target? p' := (behind_locatePath h p').place?_eq

/-! ### Directories that are made -/

/-- A workspace with another directory. -/
def withDirectory (w : Workspace) (place : List String) : Workspace := { w with directories := w.directories ++ [place] }

theorem hasDirectory_withDirectory (h : w.hasDirectory q = true) : (w.withDirectory place).hasDirectory q = true := by
  rw [hasDirectory_iff] at *
  refine h.imp_right (Or.imp_left ?_)
  rintro ⟨r, hr, hq⟩
  exact ⟨r, List.mem_append_left _ hr, hq⟩

/-- A directory is reached by directories. -/
theorem eq_directory_of_step (h : w.step a name = .directory q) : ∃ r, a = .directory r := by
  cases a with
  | directory r => exact ⟨r, rfl⟩
  | file | free | missing | blocked | outside => exact nomatch h

theorem at_eq_directory_iff : w.at_ q = .directory place ↔ q = place ∧ w.text? q = none ∧ w.hasDirectory q = true := by
  unfold at_
  cases w.text? q with
  | some old => simp
  | none => cases w.hasDirectory q <;> simp

theorem at_eq_free_iff : w.at_ q = .free place ↔ q = place ∧ w.text? q = none ∧ w.hasDirectory q = false := by
  unfold at_
  cases w.text? q with
  | some old => simp
  | none => cases w.hasDirectory q <;> simp

theorem step_withDirectory (h : w.step a name = .directory q) : (w.withDirectory place).step a name = .directory q := by
  obtain ⟨r, rfl⟩ := eq_directory_of_step h
  rcases step_cases r name with hat | ⟨b, -, hall⟩
  · rw [hat] at *
    rw [at_eq_directory_iff] at *
    exact ⟨h.1, h.2.1, hasDirectory_withDirectory h.2.2⟩
  · rw [hall, ← hall w, h]

theorem follow_append (names : List String) : w.follow (names ++ [name]) = w.step (w.follow names) name := by
  rw [follow, List.foldl_append]
  rfl

/-- Directories stay where they are. -/
theorem follow_withDirectory (h : w.follow names = .directory q) : (w.withDirectory place).follow names = .directory q := by
  -- by induction from behind: what leads to a directory comes through a directory
  induction names using List.reverseRecOn generalizing q with
  | nil => exact h
  | append_singleton names name ih =>
    rw [follow_append] at *
    obtain ⟨r, hr⟩ := eq_directory_of_step h
    rw [ih hr]
    rw [hr] at h
    exact step_withDirectory h

/-- A directory can be made at a free place. -/
theorem follow_of_free (h : w.follow names = .free place) : (w.withDirectory place).follow names = .directory place := by
  cases names using List.reverseRecOn with
  | nil => exact nomatch h
  | append_singleton names name =>
    rw [follow_append] at *
    obtain ⟨r, hr⟩ : ∃ r, w.follow names = .directory r := by
      cases hfollow : w.follow names with
      | directory r => exact ⟨r, rfl⟩
      | file | free | missing | blocked | outside => rw [hfollow] at h; exact nomatch h
    rw [follow_withDirectory hr]
    rw [hr] at h
    rcases step_cases r name with hat | ⟨a, ha, hall⟩
    · rw [hat, at_eq_free_iff] at h
      obtain ⟨rfl, hnone, -⟩ := h
      rw [hat, at_eq_directory_iff]
      exact ⟨rfl, hnone, hasDirectory_iff.2 (.inr (.inl ⟨_, List.mem_append_right _ List.mem_cons_self, List.prefix_rfl⟩))⟩
    · rw [← hall w, h] at ha
      exact nomatch ha

/-- A directory is made if it is not there. -/
def madeAt? (w : Workspace) (names : List String) : Option Workspace :=
  match w.follow names with
  | .directory _ => some w
  | .free place => some (w.withDirectory place)
  | _ => none

theorem withDirectories_eq (w : Workspace) (names : List String) :
    w.withDirectories names = (List.range (names.length + 1)).foldlM (fun w n => w.madeAt? (names.take n)) w := rfl

theorem follow_of_madeAt? (h : w.madeAt? names = some w') : ∃ q, w'.follow names = .directory q := by
  unfold madeAt? at h
  split at h
  · next q hq =>
    obtain rfl := Option.some.inj h
    exact ⟨q, hq⟩
  · next q hq =>
    obtain rfl := Option.some.inj h
    exact ⟨q, follow_of_free hq⟩
  · exact nomatch h

theorem text?_of_madeAt? (h : w.madeAt? names = some w') (q : List String) : w'.text? q = w.text? q := by
  unfold madeAt? at h
  split at h
  · rw [Option.some.inj h]
  · obtain rfl := Option.some.inj h
    rfl
  · exact nomatch h

theorem follow_withDirectories (h : w.withDirectories names = some w') : ∃ q, w'.follow names = .directory q := by
  rw [withDirectories_eq, List.range_succ, List.foldlM_append] at h
  -- the directory itself is made in the last step
  obtain ⟨v, -, h⟩ := Option.bind_eq_some_iff.1 h
  rw [List.foldlM_cons, List.take_length] at h
  obtain ⟨v', hmade, hv⟩ := Option.bind_eq_some_iff.1 h
  obtain rfl := Option.some.inj hv
  exact follow_of_madeAt? hmade

theorem text?_withDirectories (h : w.withDirectories names = some w') (q : List String) : w'.text? q = w.text? q := by
  rw [withDirectories_eq] at h
  generalize List.range (names.length + 1) = ns at h
  induction ns generalizing w with
  | nil => rw [Option.some.inj h]
  | cons n ns ih =>
    rw [List.foldlM_cons] at h
    obtain ⟨v, hv, h⟩ := Option.bind_eq_some_iff.1 h
    rw [ih h, text?_of_madeAt? hv]

/-- A name that does not stand for the directory itself or the one above it leads to a place in the directory. -/
theorem step_directory (hsame : name ≠ "" ∧ name ≠ ".") (hup : name ≠ "..") :
    w.step (.directory q) name = if nameLimit < name.utf8ByteSize then .blocked else w.at_ (q ++ [name]) := by
  simp [step, hsame, hup]

/-- A name leads from a directory to its place there, or to none. -/
theorem target?_eq_some (hsame : name ≠ "" ∧ name ≠ ".") (hup : name ≠ "..") (h : w.follow names = .directory q)
    (hplace : (w.follow (names ++ [name])).place? = some place) : place = q ++ [name] := by
  rw [follow_append, h, step_directory hsame hup] at hplace
  split at hplace
  · exact nomatch hplace
  · unfold at_ at hplace
    split at hplace
    · exact (Option.some.inj hplace).symm
    · split at hplace
      · exact nomatch hplace
      · exact (Option.some.inj hplace).symm

end Workspace

end VirtualTopology
