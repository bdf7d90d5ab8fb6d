import VirtualTopology.Proofs.Data.Mapping
import VirtualTopology.Proofs.Topology.DomainItems
import VirtualTopology.Settings.Loading

/-!
# Overriding sections

What an environment sets is put into the sections of the settings, key by key. A key has the value of its variable, if the
variable has a text, and is left as it was otherwise; so are all other keys of the section, and all other sections
(`Settings.stated?_overridden`).
-/

namespace VirtualTopology

open Tables (exists_of_bind_eq_ok)

/-! ### What variables set -/

namespace Environment

variable {env : Environment} {vs : List Variable} {keys : Mapping}

/-- The text of a variable that has one. -/
def written? (env : Environment) (v : Variable) : Option String := (env v.name).filter (!·.isEmpty)

/-- The value that a variable sets, if it is set to a text that has one. -/
def value? (env : Environment) (v : Variable) : Option Data :=
  (env.written? v).bind fun written => (v.form.read written).toOption

/-- The variable of a key in a section. -/
def variableOf (name key : String) : Option Variable := (sections.lookup name).bind (·.find? (·.key == key))

/-- A variable sets nothing, or it has a text with a value. -/
theorem Variable.entry?_eq_ok {v : Variable} {e : Option (Scalar × Data)} (h : v.entry? env = .ok e) :
    env.written? v = none ∧ e = none ∨
      ∃ written d, env.written? v = some written ∧ v.form.read written = .ok d ∧ e = some (.text v.key, d) := by
  unfold Variable.entry? at h
  rw [← written?] at h
  cases hwritten : env.written? v with
  | none =>
    rw [hwritten] at h
    exact .inl ⟨rfl, (Except.ok.inj h).symm⟩
  | some written =>
    rw [hwritten] at h
    dsimp only at h
    cases hread : v.form.read written with
    | error e => rw [hread] at h; exact nomatch h
    | ok d =>
      rw [hread] at h
      exact .inr ⟨written, d, rfl, hread, (Except.ok.inj h).symm⟩

theorem entries_cons_eq_ok {v : Variable} (h : entries env (v :: vs) = .ok keys) :
    ∃ e rest, v.entry? env = .ok e ∧ entries env vs = .ok rest ∧ keys = e.toList ++ rest := by
  unfold entries at h
  obtain ⟨e, he, h⟩ := exists_of_bind_eq_ok h
  obtain ⟨rest, hrest, h⟩ := exists_of_bind_eq_ok h
  exact ⟨e, rest, he, hrest, (Except.ok.inj h).symm⟩

/-- **A key that is put in has the value of its variable**, and the other keys are left as they were. -/
theorem at?_foldl_entries (h : entries env vs = .ok keys) (hdistinct : (vs.map (·.key)).Nodup) (own : Mapping)
    (key : String) :
    Mapping.at? (keys.foldl (fun m e => m.put e.1 e.2) own) key =
      ((vs.find? (·.key == key)).bind env.value?).or (own.at? key) := by
  induction vs generalizing keys own with
  | nil =>
    obtain rfl := Except.ok.inj h
    rfl
  | cons v vs ih =>
    obtain ⟨e, rest, he, hrest, rfl⟩ := entries_cons_eq_ok h
    rw [List.map_cons, List.nodup_cons] at hdistinct
    -- keys are distinct, so the variables behind this one leave its key alone
    have hother : v.key = key → vs.find? (·.key == key) = none := fun hkey => by
      rw [List.find?_eq_none]
      intro u hu heq
      exact hdistinct.1 (hkey ▸ beq_iff_eq.1 heq ▸ List.mem_map_of_mem hu)
    rw [List.foldl_append, ih hrest hdistinct.2, List.find?_cons]
    rcases Variable.entry?_eq_ok he with ⟨hwritten, rfl⟩ | ⟨written, d, hwritten, hread, rfl⟩
    · by_cases hkey : v.key = key
      · simp [hkey, hother hkey, value?, hwritten]
      · simp [beq_false_of_ne hkey]
    · by_cases hkey : v.key = key
      · simp [hkey, hother hkey, value?, hwritten, hread, Mapping.at?_put, Except.toOption]
      · simp [beq_false_of_ne hkey, Mapping.at?_put, hkey]

/-- What an environment sets is what the variables of each section set, where these set anything. -/
theorem overrides_eq_ok {os : List (String × Mapping)} (h : env.overrides = .ok os) :
    ∃ all, os = all.filter (!·.2.isEmpty) ∧
      List.Forall₂ (fun s o => o.1 = s.1 ∧ entries env s.2 = .ok o.2) sections all := by
  unfold overrides at h
  obtain ⟨all, hall, hos⟩ := exists_of_bind_eq_ok h
  refine ⟨all, (Except.ok.inj hos).symm, (Except.mapM_eq_ok_iff.1 hall).imp fun s o h => ?_⟩
  obtain ⟨keys, hkeys, h⟩ := exists_of_bind_eq_ok h
  obtain rfl := Except.ok.inj h
  exact ⟨rfl, hkeys⟩

/-- What is set is kept by section, and the sections are different ones. -/
theorem nodup_names {all : List (String × Mapping)}
    (h : List.Forall₂ (fun s o => o.1 = s.1 ∧ entries env s.2 = .ok o.2) sections all) : (all.map (·.1)).Nodup := by
  have hnames : sections.map (·.1) = all.map (·.1) := by
    have hmap := List.forall₂_map_left_iff.2 (List.forall₂_map_right_iff.2 (h.imp fun s o h => h.1.symm))
    rwa [List.forall₂_eq_eq_eq] at hmap
  rw [← hnames]
  decide

theorem nodup_overrides {os : List (String × Mapping)} (h : env.overrides = .ok os) : (os.map (·.1)).Nodup := by
  obtain ⟨all, rfl, hall⟩ := overrides_eq_ok h
  exact (nodup_names hall).sublist (List.filter_sublist.map _)

/-- The variables of a section, and what they set. -/
theorem lookup_entries {all : List (String × Mapping)} {ss : List (String × List Variable)}
    (h : List.Forall₂ (fun s o => o.1 = s.1 ∧ entries env s.2 = .ok o.2) ss all) (name : String) :
    ss.lookup name = none ∧ all.lookup name = none ∨
      ∃ vs keys, ss.lookup name = some vs ∧ all.lookup name = some keys ∧ entries env vs = .ok keys := by
  induction h with
  | nil => exact .inl ⟨rfl, rfl⟩
  | @cons s o ss all hhead _ ih =>
    obtain ⟨hname, hentries⟩ := hhead
    rw [List.lookup_cons, List.lookup_cons, hname]
    by_cases hsame : name = s.1
    · rw [beq_iff_eq.2 hsame]
      exact .inr ⟨s.2, o.2, rfl, rfl, hentries⟩
    · rw [beq_false_of_ne hsame]
      exact ih

/-- Where variables set something, their texts have values. -/
theorem exists_read_of_entries (h : entries env vs = .ok keys) {v : Variable} (hv : v ∈ vs) {written : String}
    (hwritten : env.written? v = some written) : ∃ d, v.form.read written = .ok d := by
  induction vs generalizing keys with
  | nil => exact nomatch hv
  | cons u vs ih =>
    obtain ⟨e, rest, he, hrest, -⟩ := entries_cons_eq_ok h
    rcases List.mem_cons.1 hv with rfl | hv
    · rcases Variable.entry?_eq_ok he with ⟨hnone, -⟩ | ⟨other, d, hother, hread, -⟩
      · exact nomatch hnone.symm.trans hwritten
      · obtain rfl := Option.some.inj (hwritten.symm.trans hother)
        exact ⟨d, hread⟩
    · exact ih hrest hv

theorem exists_read_of_overrides {os : List (String × Mapping)} (h : env.overrides = .ok os) {name key : String}
    {v : Variable} (hv : variableOf name key = some v) {written : String} (hwritten : env.written? v = some written) :
    ∃ d, v.form.read written = .ok d := by
  obtain ⟨all, -, hall⟩ := overrides_eq_ok h
  obtain ⟨vs, hvs, hfind⟩ := Option.bind_eq_some_iff.1 hv
  rcases lookup_entries hall name with ⟨hnone, -⟩ | ⟨_, keys, hvs', -, hentries⟩
  · exact nomatch hnone.symm.trans hvs
  · obtain rfl := Option.some.inj (hvs.symm.trans hvs')
    exact exists_read_of_entries hentries (List.mem_of_find?_eq_some hfind) hwritten

/-- The variables of a section set different keys. -/
theorem nodup_keys {name : String} (h : sections.lookup name = some vs) : (vs.map (·.key)).Nodup := by
  have hall : ∀ s ∈ sections, (s.2.map (·.key)).Nodup := by decide
  obtain ⟨before, behind, heq, -⟩ := List.lookup_eq_some_iff.1 h
  exact hall (name, vs) (by rw [heq]; simp)

end Environment

/-! ### Keys of sections -/

namespace Settings

/-- The value of a key in a section. -/
def keyOf (section_ : Data) (key : String) : Option Data :=
  match section_.untied with
  | .mapping own => Mapping.at? own key
  | _ => none

/-- What settings that are given as data state under a key of a section. -/
def stated? (d : Data) (name key : String) : Option Data :=
  match d.untied with
  | .mapping sections => (Mapping.at? sections name).bind (keyOf · key)
  | _ => none

theorem keyOf_eq {section_ : Data} {own : Mapping} (h : section_.untied = .mapping own) (key : String) :
    keyOf section_ key = own.at? key := by
  rw [keyOf, h]

theorem stated?_eq {d : Data} {m : Mapping} (h : d.untied = .mapping m) (name key : String) :
    stated? d name key = (m.at? name).bind (keyOf · key) := by
  rw [stated?, h]

/-- Keys that are put into a section stand above its own. A section that is a mapping afterwards was one before. -/
theorem sectionOverridden_eq_ok {keys own' : Mapping} {d section_ : Data} (h : sectionOverridden keys d = .ok section_)
    (hown' : section_.untied = .mapping own') :
    ∃ own, d.untied = .mapping own ∧ own' = keys.foldl (fun m e => Mapping.put m e.1 e.2) own := by
  unfold sectionOverridden at h
  split at h
  · next own hown =>
    obtain rfl := Except.ok.inj h
    exact ⟨own, hown, (Data.mapping.inj hown').symm⟩
  · obtain rfl := Except.ok.inj h
    exact nomatch hown'
  · exact nomatch h

/-- Overrides are put into a section. -/
def overriddenBy (m : Mapping) (o : String × Mapping) : Except SettingsError Mapping := do
  return m.put (.text o.1) (← sectionOverridden o.2 ((m.at? o.1).getD (.mapping [])))

/-- A section has its own keys under those that are put into it, and is left as it was if none are. -/
theorem at?_of_foldlM {all : List (String × Mapping)} (hdistinct : (all.map (·.1)).Nodup) {m m' : Mapping}
    (h : (all.filter (!·.2.isEmpty)).foldlM overriddenBy m = .ok m') (name : String) :
    (∃ keys section_, all.lookup name = some keys ∧
        sectionOverridden keys ((m.at? name).getD (.mapping [])) = .ok section_ ∧ m'.at? name = some section_) ∨
      (∀ keys, all.lookup name = some keys → keys = []) ∧ m'.at? name = m.at? name := by
  induction all generalizing m with
  | nil =>
    obtain rfl := Except.ok.inj h
    exact .inr ⟨nofun, rfl⟩
  | cons o all ih =>
    rw [List.map_cons, List.nodup_cons] at hdistinct
    -- no override behind this one is for the same section
    have habsent : name = o.1 → all.lookup name = none := fun hname => by
      rw [List.lookup_eq_none_iff]
      intro p hp
      have hne : name ≠ p.1 := fun heq => hdistinct.1 (by rw [← hname, heq]; exact List.mem_map_of_mem hp)
      exact bne_iff_ne.2 hne
    have hlater : name ≠ o.1 → (o :: all).lookup name = all.lookup name := fun hname => by
      rw [List.lookup_cons, beq_false_of_ne hname]
    have hhere : name = o.1 → (o :: all).lookup name = some o.2 := fun hname => by
      rw [List.lookup_cons, beq_iff_eq.2 hname]
    by_cases hempty : o.2.isEmpty
    · rw [List.filter_cons_of_neg (by simp [hempty])] at h
      rcases ih hdistinct.2 h with ⟨keys, section_, hkeys, hsection⟩ | ⟨hkeys, hsame⟩
      · have hname : name ≠ o.1 := fun hname => nomatch (habsent hname).symm.trans hkeys
        exact .inl ⟨keys, section_, (hlater hname).trans hkeys, hsection⟩
      · refine .inr ⟨fun keys hlookup => ?_, hsame⟩
        by_cases hname : name = o.1
        · obtain rfl := Option.some.inj ((hhere hname).symm.trans hlookup)
          exact List.isEmpty_iff.1 hempty
        · exact hkeys keys ((hlater hname).symm.trans hlookup)
    · rw [List.filter_cons_of_pos (by simp [hempty]), List.foldlM_cons] at h
      obtain ⟨_, hoverridden, h⟩ := exists_of_bind_eq_ok h
      obtain ⟨section_, hput, hoverridden⟩ := exists_of_bind_eq_ok hoverridden
      obtain rfl := Except.ok.inj hoverridden
      rcases ih hdistinct.2 h with ⟨keys, other, hkeys, hother, hsome⟩ | ⟨hkeys, hsame⟩
      · have hname : name ≠ o.1 := fun hname => nomatch (habsent hname).symm.trans hkeys
        rw [Mapping.at?_put, if_neg (Ne.symm hname)] at hother
        exact .inl ⟨keys, other, (hlater hname).trans hkeys, hother, hsome⟩
      · by_cases hname : name = o.1
        · subst hname
          rw [Mapping.at?_put, if_pos rfl] at hsame
          exact .inl ⟨o.2, section_, hhere rfl, hput, hsame⟩
        · rw [Mapping.at?_put, if_neg (Ne.symm hname)] at hsame
          exact .inr ⟨fun keys hlookup => hkeys keys ((hlater hname).symm.trans hlookup), hsame⟩

theorem overridden_eq_ok {os : List (String × Mapping)} {d d' : Data} {m' : Mapping} (h : overridden os d = .ok d')
    (hd' : d'.untied = .mapping m') : ∃ m, d.untied = .mapping m ∧ os.foldlM overriddenBy m = .ok m' := by
  cases os with
  | nil =>
    obtain rfl := Except.ok.inj h
    exact ⟨m', hd', rfl⟩
  | cons o os =>
    unfold overridden at h
    split at h
    · next hnil => exact nomatch hnil
    · next m hm _ =>
      obtain ⟨_, hfold, h⟩ := exists_of_bind_eq_ok h
      obtain rfl := Except.ok.inj h
      obtain rfl := Data.mapping.inj hd'
      exact ⟨m, hm, hfold⟩
    · exact nomatch h

/-- Whether the section with a name is a mapping if it is there. -/
def HasSection (m : Mapping) (name : String) : Prop :=
  ∀ section_, m.at? name = some section_ → ∃ own, section_.untied = .mapping own

/-- **A key has the value of its variable, or the value that it had.** -/
theorem stated?_overridden {env : Environment} {os : List (String × Mapping)} {d d' : Data} {m' : Mapping}
    {name : String} (hos : env.overrides = .ok os) (h : overridden os d = .ok d') (hd' : d'.untied = .mapping m')
    (hsection : HasSection m' name) (key : String) :
    stated? d' name key = ((Environment.variableOf name key).bind env.value?).or (stated? d name key) := by
  obtain ⟨all, rfl, hall⟩ := Environment.overrides_eq_ok hos
  obtain ⟨m, hd, hfold⟩ := overridden_eq_ok h hd'
  have hdistinct := Environment.nodup_names hall
  have hlookup := Environment.lookup_entries hall name
  rw [stated?_eq hd, stated?_eq hd']
  rcases at?_of_foldlM hdistinct hfold name with ⟨keys, section_, hkeys, hput, hthere⟩ | ⟨hempty, hsame⟩
  · rcases hlookup with ⟨-, hnone⟩ | ⟨vs, _, hvs, hall', hentries⟩
    · exact nomatch hnone.symm.trans hkeys
    · obtain rfl := Option.some.inj (hkeys.symm.trans hall')
      obtain ⟨own', hown'⟩ := hsection _ hthere
      obtain ⟨own, hown, rfl⟩ := sectionOverridden_eq_ok hput hown'
      -- a section that was missing begins as one without keys
      have hbefore : (Mapping.at? m name).bind (keyOf · key) = Mapping.at? own key := by
        rw [← keyOf_eq hown key]
        cases Mapping.at? m name <;> rfl
      rw [hbefore, hthere, Option.bind_some, keyOf_eq hown', Environment.variableOf, hvs]
      exact Environment.at?_foldl_entries hentries (Environment.nodup_keys hvs) own key
  · -- a section is left alone only if none of its variables has a text
    have hnothing : (Environment.variableOf name key).bind env.value? = none := by
      unfold Environment.variableOf
      rcases hlookup with ⟨hnone, -⟩ | ⟨vs, keys, hvs, hkeys, hentries⟩
      · rw [hnone]
        rfl
      · obtain rfl := hempty keys hkeys
        rw [hvs]
        have hnil := Environment.at?_foldl_entries hentries (Environment.nodup_keys hvs) [] key
        simpa using hnil.symm
    rw [hnothing, hsame]
    rfl

end Settings

end VirtualTopology
