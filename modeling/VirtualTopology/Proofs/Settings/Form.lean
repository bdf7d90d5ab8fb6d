import VirtualTopology.Proofs.Settings.Precedence

/-!
# The form of settings

Loading settings fails behind a line that says why, unless it fails at the form of the file: there is no line for a text
that cannot be read as YAML, nor for data in which the overrides find no section that takes keys, or whose sections have
no names (`Settings.says_load_iff`). Values are another matter. Whatever a section in the right form holds, the settings
are read or there is a line about them.
-/

namespace VirtualTopology

open Tables (exists_of_bind_eq_ok)

/-! ### Results whose error has a line -/

namespace SettingsError

variable {α β : Type} {x : Except SettingsError α} {f : α → Except SettingsError β} {e : SettingsError}

/-- Whether a result has a line for what went wrong, if anything did. -/
def Says (x : Except SettingsError α) : Prop := ∀ e, x = .error e → e.message?.isSome

theorem says_ok (a : α) : Says (.ok a) := nofun

theorem says_error_iff : Says (.error e : Except SettingsError α) ↔ e.message?.isSome :=
  ⟨fun h => h e rfl, fun h _ he => Except.error.inj he ▸ h⟩

theorem says_bind_iff : Says (x >>= f) ↔ Says x ∧ ∀ a, x = .ok a → Says (f a) := by
  cases x with
  | error e =>
    show Says (.error e) ↔ _
    rw [says_error_iff, says_error_iff]
    exact ⟨fun h => ⟨h, nofun⟩, And.left⟩
  | ok a => exact ⟨fun h => ⟨says_ok a, fun b hb => Except.ok.inj hb ▸ h⟩, fun h => h.2 a rfl⟩

end SettingsError

namespace Mapping

variable {m : Mapping} {key : String} {d : Data}

/-- Whether all keys of a mapping are texts. -/
def IsNamed (m : Mapping) : Prop := ∀ e ∈ m, ∃ name, e.1 = .text name

theorem isNamed_cons_iff {e : Scalar × Data} : IsNamed (e :: m) ↔ (∃ name, e.1 = .text name) ∧ m.IsNamed :=
  List.forall_mem_cons

theorem all_matches_text_iff : (m.all fun e => e.1 matches .text _) = true ↔ m.IsNamed := by
  rw [List.all_eq_true]
  refine forall₂_congr fun e _ => ?_
  cases e.1 <;> simp

/-- A value under a name does not change whether there are other keys than names. -/
theorem isNamed_put_iff : IsNamed (m.put (.text key) d) ↔ m.IsNamed := by
  induction m with
  | nil => simp [IsNamed, Mapping.put]
  | cons e m ih =>
    rw [Mapping.put]
    split
    · rw [isNamed_cons_iff, isNamed_cons_iff]
    · rw [isNamed_cons_iff, isNamed_cons_iff, ih]

end Mapping

namespace Settings

open SettingsError

variable {file : Option String} {env : Environment} {d section_ : Data} {m m' : Mapping} {os : List (String × Mapping)}

/-! ### Overrides and the sections that take them -/

/-- Whether keys can be put into a section. -/
def TakesKeys (section_ : Data) : Prop :=
  (∃ own, section_.untied = .mapping own) ∨ ∃ items, section_.untied = .set items

theorem takesKeys_empty : TakesKeys (.mapping []) := .inl ⟨[], rfl⟩

theorem says_sectionOverridden_iff {keys : Mapping} : Says (sectionOverridden keys section_) ↔ TakesKeys section_ := by
  unfold sectionOverridden TakesKeys
  split
  · next own hown => simp [says_ok, hown]
  · next items hitems => simp [says_ok, hitems]
  · next hmapping hset =>
    rw [says_error_iff]
    refine iff_of_false nofun ?_
    rintro (⟨own, hown⟩ | ⟨items, hitems⟩)
    · exact hmapping own hown
    · exact hset items hitems

theorem exists_of_says_sectionOverridden (keys : Mapping) (h : Says (sectionOverridden keys section_)) :
    ∃ d, sectionOverridden keys section_ = .ok d := by
  unfold sectionOverridden at *
  split at *
  · exact ⟨_, rfl⟩
  · exact ⟨_, rfl⟩
  · exact nomatch says_error_iff.1 h

/-- Whether the sections that overrides are put into take keys, as far as they are there. -/
def Takes (m : Mapping) (os : List (String × Mapping)) : Prop :=
  ∀ o ∈ os, ∀ section_, m.at? o.1 = some section_ → TakesKeys section_

/-- Overrides find their sections one by one: what is put into one leaves the others alone. -/
theorem foldlM_overriddenBy (hdistinct : (os.map (·.1)).Nodup) :
    (Takes m os → ∃ m', os.foldlM overriddenBy m = .ok m' ∧ (m'.IsNamed ↔ m.IsNamed)) ∧
      (¬ Takes m os → ¬ Says (os.foldlM overriddenBy m)) := by
  induction os generalizing m with
  | nil => exact ⟨fun _ => ⟨m, rfl, Iff.rfl⟩, fun h => absurd nofun h⟩
  | cons o os ih =>
    rw [List.map_cons, List.nodup_cons] at hdistinct
    have hfirst : TakesKeys ((m.at? o.1).getD (.mapping [])) ↔ ∀ section_, m.at? o.1 = some section_ → TakesKeys section_ := by
      cases m.at? o.1 with
      | none => simp [takesKeys_empty]
      | some section_ => simp
    -- names are different, so what is put into the first section is not seen by the later overrides
    have hlater (d : Data) : Takes (m.put (.text o.1) d) os ↔ Takes m os := by
      refine forall₂_congr fun p hp => ?_
      have hne : o.1 ≠ p.1 := fun heq => hdistinct.1 (heq ▸ List.mem_map_of_mem hp)
      rw [Mapping.at?_put, if_neg hne]
    have hall : Takes m (o :: os) ↔ TakesKeys ((m.at? o.1).getD (.mapping [])) ∧ Takes m os := by
      rw [hfirst]
      exact List.forall_mem_cons
    rw [List.foldlM_cons, overriddenBy, hall, says_bind_iff, says_bind_iff, says_sectionOverridden_iff]
    constructor
    · rintro ⟨hhere, hrest⟩
      obtain ⟨d, hd⟩ := exists_of_says_sectionOverridden o.2 (says_sectionOverridden_iff.2 hhere)
      obtain ⟨m', hm', hnamed⟩ := (ih hdistinct.2).1 ((hlater d).2 hrest)
      rw [hd]
      exact ⟨m', hm', hnamed.trans Mapping.isNamed_put_iff⟩
    · rintro hnot ⟨⟨hhere, -⟩, hrest⟩
      obtain ⟨d, hd⟩ := exists_of_says_sectionOverridden o.2 (says_sectionOverridden_iff.2 hhere)
      rw [hd] at hrest
      exact (ih hdistinct.2).2 (fun h => hnot ⟨hhere, (hlater d).1 h⟩) (hrest _ rfl)

/-- Whether data has the form of settings into which overrides can be put: sections with names, each of which takes keys if
any are put into it. -/
def IsSectioned (d : Data) (os : List (String × Mapping)) : Prop :=
  ∃ m : Mapping, d.untied = .mapping m ∧ m.IsNamed ∧ Takes m os

theorem says_ofSections_iff : Says (ofSections d) ↔ ∃ m : Mapping, d.untied = .mapping m ∧ m.IsNamed := by
  unfold ofSections
  split
  · next m hm =>
    rw [hm]
    split
    · next hnamed =>
      refine iff_of_true (fun e he => ?_) ⟨m, rfl, Mapping.all_matches_text_iff.1 hnamed⟩
      cases hread : (reading d).titled "Config" with
      | error r =>
        rw [hread] at he
        obtain rfl := Except.error.inj he
        rfl
      | ok s => rw [hread] at he; exact nomatch he
    · next hnamed =>
      rw [says_error_iff]
      refine iff_of_false nofun ?_
      rintro ⟨_, heq, hall⟩
      obtain rfl := Data.mapping.inj heq
      exact hnamed (Mapping.all_matches_text_iff.2 hall)
  · next hmapping =>
    rw [says_error_iff]
    refine iff_of_false nofun ?_
    rintro ⟨m, hm, -⟩
    exact hmapping m hm

/-- **Data is read behind its overrides, or there is a line**, if it is sectioned. -/
theorem says_overridden_iff (hdistinct : (os.map (·.1)).Nodup) :
    Says (do ofSections (← overridden os d)) ↔ IsSectioned d os := by
  -- without overrides the data is not looked at before it is read
  cases os with
  | nil =>
    show Says (ofSections d) ↔ _
    rw [says_ofSections_iff]
    exact exists_congr fun m => and_congr_right fun _ => ⟨fun h => ⟨h, nofun⟩, And.left⟩
  | cons o os =>
    unfold overridden IsSectioned
    split
    · next hnil => exact nomatch hnil
    · next m hm _ =>
      rw [hm]
      obtain ⟨htakes, hnot⟩ := foldlM_overriddenBy (m := m) hdistinct
      show Says ((List.foldlM overriddenBy m (o :: os) >>= fun sections => pure (.mapping sections)) >>= ofSections) ↔ _
      by_cases hall : Takes m (o :: os)
      · obtain ⟨m', hm', hnamed⟩ := htakes hall
        rw [hm']
        show Says (ofSections (.mapping m')) ↔ _
        rw [says_ofSections_iff]
        constructor
        · rintro ⟨_, heq, h⟩
          obtain rfl := Data.mapping.inj heq
          exact ⟨m, rfl, hnamed.1 h, hall⟩
        · rintro ⟨_, heq, h, -⟩
          obtain rfl := Data.mapping.inj heq
          exact ⟨m', rfl, hnamed.2 h⟩
      · rw [says_bind_iff, says_bind_iff]
        refine iff_of_false (fun h => hnot hall h.1.1) ?_
        rintro ⟨_, heq, -, h⟩
        obtain rfl := Data.mapping.inj heq
        exact hall h
    · next _ hmapping =>
      refine iff_of_false (fun h => nomatch h _ rfl) ?_
      rintro ⟨m, hm, -⟩
      exact hmapping m hm

/-! ### Loading -/

/-- What settings are not loaded for without a line: the text of their file cannot be read and has none, or what the file
holds is not sectioned for what the environment sets. -/
inductive Stumbles (file : Option String) (env : Environment) : Prop where
  | unreadable {text : String} {flaw : Yaml.Flaw} (hfile : file = some text) (hread : Yaml.read text = .error flaw)
      (hsilent : flaw.message? = none)
  | formless {d : Data} {os : List (String × Mapping)} (hd : contents file = .ok d) (hos : env.overrides = .ok os)
      (hform : ¬ IsSectioned d os)

theorem says_contents_iff : Says (contents file) ↔
    ∀ text flaw, file = some text → Yaml.read text = .error flaw → flaw.message?.isSome := by
  unfold contents
  cases file with
  | none => exact iff_of_true (says_ok _) nofun
  | some text =>
    dsimp only
    cases hread : Yaml.read text with
    | error flaw =>
      rw [says_error_iff]
      constructor
      · rintro h _ _ ⟨⟩ hflaw
        obtain rfl := Except.error.inj (hread.symm.trans hflaw)
        exact h
      · exact fun h => h text flaw rfl hread
    | ok d =>
      refine iff_of_true (says_ok _) ?_
      rintro _ flaw ⟨⟩ hflaw
      exact nomatch hread.symm.trans hflaw

/-- **Settings are loaded, or there is a line about what is wrong**, unless the form of the file is wrong. -/
theorem says_load_iff : Says (load file env) ↔ ¬ Stumbles file env := by
  -- a variable that is refused always has a line, so only the file can be at fault
  have hrefused : Says (env.overrides.mapError SettingsError.refused) := by
    intro e he
    cases hoverrides : env.overrides with
    | ok os => rw [hoverrides] at he; exact nomatch he
    | error r =>
      rw [hoverrides] at he
      obtain rfl := Except.error.inj he
      rfl
  have hread {os : List (String × Mapping)} : env.overrides.mapError SettingsError.refused = .ok os ↔ env.overrides = .ok os := by
    cases env.overrides <;> simp [Except.mapError]
  unfold load
  rw [says_bind_iff, says_contents_iff]
  constructor
  · rintro ⟨hcontents, hrest⟩ (⟨hfile, hflaw, hsilent⟩ | ⟨hd, hos, hform⟩)
    · exact absurd (hcontents _ _ hfile hflaw) (by simp [hsilent])
    · refine hform ((says_overridden_iff (Environment.nodup_overrides hos)).1 ?_)
      exact (says_bind_iff.1 (hrest _ hd)).2 _ (hread.2 hos)
  · intro h
    constructor
    · intro text flaw hfile hflaw
      by_contra hsilent
      exact h (.unreadable hfile hflaw (by simpa using hsilent))
    · intro d hd
      refine says_bind_iff.2 ⟨hrefused, fun os hos => ?_⟩
      rw [hread] at hos
      refine (says_overridden_iff (Environment.nodup_overrides hos)).2 ?_
      by_contra hform
      exact h (.formless hd hos hform)

end Settings

end VirtualTopology
