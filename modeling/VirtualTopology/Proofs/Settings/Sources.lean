import VirtualTopology.Proofs.Data.Written
import VirtualTopology.Proofs.Settings.Soundness

/-!
# The same text in a variable and in a file

A variable and the file may tell a setting the same text. What comes of it is settled by the two ways in which the text is
read (`Settings.toOption_load_eq_iff`): texts as they are, integers and numbers by themselves in a variable and as data in the
file, and truth values by one word in a variable and by several in the file.

Both ways come to the same settings, or both to none, but for a few forms of texts (`Environment.Form.Strays`). One of them
matters most: a word for true other than `true` turns a dry run on in the file and off in a variable.
-/

namespace VirtualTopology

open Reading Checked Text

/-! ### What is there is valid -/

namespace Checked

variable {α β : Type} {f : α → β} {g : Checked (α → β)} {x : Checked α}

/-- Whether there is nothing wrong. -/
def IsValid (x : Checked α) : Prop := ∃ a, x = .valid a

theorem isValid_map_iff : (f <$> x).IsValid ↔ x.IsValid := by
  cases x with
  | valid a => exact iff_of_true ⟨f a, rfl⟩ ⟨a, rfl⟩
  | invalid fs => exact iff_of_false nofun nofun

theorem isValid_seq_iff : (g <*> x).IsValid ↔ g.IsValid ∧ x.IsValid := by
  constructor
  · rintro ⟨b, hb⟩
    obtain ⟨f, a, hf, ha, -⟩ := seq_eq_valid_iff.1 hb
    exact ⟨⟨f, hf⟩, a, ha⟩
  · rintro ⟨⟨f, hf⟩, a, ha⟩
    exact ⟨f a, seq_eq_valid_iff.2 ⟨f, a, hf, ha, rfl⟩⟩

end Checked

theorem Reading.isValid_defaulted_entriesOf_iff {α : Type} {fields : List (String × Data)} {key : String} {value : α}
    {r : Reading α} :
    (defaulted (entriesOf fields) key value r).IsValid ↔ ∀ d, fields.lookup key = some d → (r d).IsValid := by
  constructor
  · rintro ⟨a, ha⟩ d hd
    exact ⟨a, (defaulted_entriesOf_iff hd).1 ha⟩
  · intro h
    cases hd : fields.lookup key with
    | none => exact ⟨value, defaulted_eq_valid_iff.2 (.inl ⟨(at?_entriesOf _ _).trans hd, rfl⟩)⟩
    | some d =>
      obtain ⟨a, ha⟩ := h d hd
      exact ⟨a, defaulted_entriesOf hd ha⟩

/-! ### One setting -/

/-- An environment in which one name has a text. -/
def Environment.setting (name written : String) : Environment := fun other => if other = name then some written else none

theorem Environment.overrides_setting {written : String} (hwritten : written ≠ "") :
    ∀ s ∈ sections, ∀ v ∈ s.2, (setting v.name written).overrides =
      (fun d => [(s.1, [(.text v.key, d)])]) <$> v.form.read written := by
  have hfilter : (some written).filter (!·.isEmpty) = some written := by simp [Option.filter, hwritten]
  -- one variable after another; all others are not set and give no keys
  simp only [sections, List.forall_mem_cons]
  refine ⟨⟨?_, ?_, ?_, List.forall_mem_nil _⟩, ⟨?_, ?_, ?_, List.forall_mem_nil _⟩, ⟨?_, ?_, List.forall_mem_nil _⟩,
    List.forall_mem_nil _⟩ <;> simp [overrides, sections, entries, Variable.entry?, setting, hfilter]
  all_goals
    generalize Form.read written _ = x
    cases x <;> rfl

namespace Settings

variable {f : Field} {d d' : Data} {s s' : Settings} {name file written : String} {v : Environment.Variable}
  {vs : List Environment.Variable}

/-- Data that gives one key of one section a value. -/
def assigning (name key : String) (d : Data) : Data := .record [(name, .record [(key, d)])]

/-- A variable gives its key the value that it is read as. -/
theorem load_setting (hwritten : written ≠ "") (hname : (name, vs) ∈ Environment.sections) (hv : v ∈ vs) :
    load none (.setting v.name written) =
      (v.form.read written).mapError .refused >>= fun d => ofSections (assigning name v.key d) := by
  unfold load
  rw [Environment.overrides_setting hwritten _ hname v hv]
  cases v.form.read written <;> rfl

theorem load_file (h : contents (some file) = .ok d) : load (some file) (fun _ => none) = ofSections d := by
  unfold load
  rw [h]
  rfl

theorem exists_of_isValid {fields : List (String × Data)} (h : (reading (.record fields)).IsValid) :
    ∃ s, ofSections (.record fields) = .ok s := by
  obtain ⟨s, hs⟩ := h
  refine ⟨s, ?_⟩
  show (if (entriesOf fields).all _ then _ else _) = _
  rw [if_pos (by simp [entriesOf]), hs]
  rfl

theorem isValid_assigning : ∀ f ∈ Field.all, ∀ d : Data, (f.reading d).IsValid →
    (reading (assigning f.sectionName f.key d)).IsValid := by
  simp only [Field.all, Field.connection, Field.pass, Field.guests, Field.log, List.forall_mem_append,
    List.forall_mem_cons]
  -- the other keys of a section are not there, and neither are the other sections
  refine ⟨⟨⟨?_, ?_⟩, ?_⟩, ?_⟩
  · refine ⟨?_, ?_, ?_, List.forall_mem_nil _⟩ <;> intro d h <;>
      simp [assigning, reading, record_record, isValid_seq_iff, isValid_map_iff, isValid_defaulted_entriesOf_iff,
        List.lookup_cons, ConnectionSettings.reading, h]
  · refine ⟨?_, ?_, ?_, List.forall_mem_nil _⟩ <;> intro d h <;>
      simp [assigning, reading, record_record, isValid_seq_iff, isValid_map_iff, isValid_defaulted_entriesOf_iff,
        List.lookup_cons, PassSettings.reading, h]
  · refine ⟨?_, ?_, ?_, ?_, ?_, ?_, ?_, ?_, ?_, ?_, ?_, ?_, List.forall_mem_nil _⟩ <;> intro d h <;>
      simp [assigning, reading, record_record, isValid_seq_iff, isValid_map_iff, isValid_defaulted_entriesOf_iff,
        List.lookup_cons, GuestSettings.reading, h]
  · refine ⟨?_, ?_, ?_, ?_, List.forall_mem_nil _⟩ <;> intro d h <;>
      simp [assigning, reading, record_record, isValid_seq_iff, isValid_map_iff, isValid_defaulted_entriesOf_iff,
        List.lookup_cons, LogSettings.reading, h]

theorem stated?_assigning (name key other k : String) (d : Data) :
    stated? (assigning name key d) other k = if name = other ∧ key = k then some d else none := by
  show (Mapping.at? [(.text name, _)] other).bind (keyOf · k) = _
  rw [Mapping.at?_cons]
  by_cases hname : name = other
  · show (if Scalar.text name = .text other then some (Data.mapping [(.text key, d)]) else _).bind _ = _
    have hkeyOf : keyOf (.mapping [(.text key, d)]) k = Mapping.at? [(.text key, d)] k := keyOf_eq rfl k
    rw [if_pos (by rw [hname]), Option.bind_some, hkeyOf, Mapping.at?_cons]
    by_cases hkey : key = k <;> simp [hname, hkey]
  · simp [hname]

/-- **One setting is what its value is read as**, and the others have their defaults. -/
theorem of_assigning (hf : f ∈ Field.all) (h : ofSections (assigning f.sectionName f.key d) = .ok s) :
    f.reading d = .valid (f.value s) ∧
      ∀ g ∈ Field.all, ¬ (f.sectionName = g.sectionName ∧ f.key = g.key) → g.value s = g.default := by
  obtain ⟨m, -, hread⟩ := Field.isRead_of_sections h
  -- the key is stated once, under its section, so the setting is read and no other is
  constructor
  · obtain ⟨-, ⟨hnone, -⟩ | ⟨e, he, hvalid⟩⟩ := hread f hf
    · rw [stated?_assigning, if_pos ⟨rfl, rfl⟩] at hnone
      exact nomatch hnone
    · rw [stated?_assigning, if_pos ⟨rfl, rfl⟩] at he
      rwa [Option.some.inj he]
  · intro g hg hne
    obtain ⟨-, ⟨-, hdefault⟩ | ⟨e, he, -⟩⟩ := hread g hg
    · exact hdefault
    · rw [stated?_assigning, if_neg hne] at he
      exact nomatch he

/-- A setting is known by its section and its key. -/
theorem Field.eq_of_key {f g : Field} (hf : f ∈ Field.all) (hg : g ∈ Field.all) (hname : f.sectionName = g.sectionName)
    (hkey : f.key = g.key) : f = g := by
  have hnodup : (Field.all.map fun f => (f.sectionName, f.key)).Nodup := by decide
  exact List.inj_on_of_nodup_map hnodup hf hg (Prod.ext hname hkey)

theorem ofSections_assigning_iff (hf : f ∈ Field.all) {a : f.α} :
    f.reading d = .valid a ↔ ∃ s, ofSections (assigning f.sectionName f.key d) = .ok s ∧ f.value s = a := by
  constructor
  · intro h
    obtain ⟨s, hs⟩ := exists_of_isValid (isValid_assigning f hf d ⟨a, h⟩)
    exact ⟨s, hs, Checked.valid.inj ((of_assigning hf hs).1.symm.trans h)⟩
  · rintro ⟨s, hs, rfl⟩
    exact (of_assigning hf hs).1

theorem eq_of_assigning (hf : f ∈ Field.all) (h : ofSections (assigning f.sectionName f.key d) = .ok s)
    (h' : ofSections (assigning f.sectionName f.key d') = .ok s') (hvalue : f.value s = f.value s') : s = s' := by
  refine eq_of_fields fun g hg => ?_
  by_cases hsame : f.sectionName = g.sectionName ∧ f.key = g.key
  · obtain rfl := Field.eq_of_key hf hg hsame.1 hsame.2
    exact hvalue
  · rw [(of_assigning hf h).2 g hg hsame, (of_assigning hf h').2 g hg hsame]

end Settings

/-! ### Two readings of a text -/

namespace Environment.Form

variable {α : Type} {r : Reading α} {written : String}

/-- The value that a reading makes of the text of a variable. -/
def Takes (form : Form) (r : Reading α) (written : String) (a : α) : Prop := ∃ d, form.read written = .ok d ∧ r d = .valid a

/-- Whether a text comes to the same in a variable and in the file. -/
def Agrees (form : Form) (r : Reading α) (written : String) : Prop :=
  ∀ a, form.Takes r written a ↔ r (.text written) = .valid a

/-- Texts that do not come to the same. A truth value is true for one word in a variable, in whatever letters, and false for
all other texts, where in the file it has to be one of the words. Digits of other scripts are known in a variable only, and so
are numbers that have underscores as well as a margin. In the file alone underscores may stand elsewhere than between digits,
integers may have a point, and zeros in front of them do not count as digits. -/
def Strays (r : Reading α) (written : String) : Form → Prop
  | .text => False
  | .truth => Text.lower written ≠ "true" ∧ boolWord? written ≠ some false
  | .integer =>
      (∃ a, integer.Takes r written a) ∧ (∃ c ∈ written.toList, isForeign c = true) ∨
        (r (.text written)).IsValid ∧
          ('.' ∈ written.toList ∨ ¬ Joins written ∨ digitLimit < (written.toList.filter Char.isDigit).length)
  | .number =>
      (∃ a, number.Takes r written a) ∧
          ((∃ c ∈ written.toList, isForeign c = true) ∨
            '_' ∈ written.toList ∧ trimBy isSpace written.toList ≠ written.toList) ∨
        (r (.text written)).IsValid ∧ ¬ Joins written

/-- Two predicates agree if neither holds where it should not, and the one that is held to more obeys that anyway. -/
theorem forall_iff_iff {p q : α → Prop} {a b : Prop} (h : ∀ x, q x ∧ a ↔ p x ∧ b) (hb : ∀ x, q x → b) :
    (∀ x, p x ↔ q x) ↔ ¬ ((∃ x, p x) ∧ ¬ b ∨ (∃ x, q x) ∧ ¬ a) := by
  constructor
  · rintro hsame (⟨⟨x, hx⟩, hnot⟩ | ⟨⟨x, hx⟩, hnot⟩)
    · exact hnot (hb x ((hsame x).1 hx))
    · exact hnot ((h x).2 ⟨(hsame x).2 hx, hb x hx⟩).2
  · rintro hnot x
    rw [not_or, not_and_not_right, not_and_not_right] at hnot
    exact ⟨fun hx => ((h x).2 ⟨hx, hnot.1 ⟨x, hx⟩⟩).1, fun hx => ((h x).1 ⟨hx, hnot.2 ⟨x, hx⟩⟩).1⟩

theorem takes_iff {form : Form} {d : Data} {a : α} (h : form.read written = .ok d) :
    form.Takes r written a ↔ r d = .valid a :=
  ⟨fun ⟨e, he, ha⟩ => by rwa [← Except.ok.inj (he.symm.trans h)], fun ha => ⟨d, h, ha⟩⟩

theorem agrees_text_iff : text.Agrees r written ↔ ¬ text.Strays r written :=
  iff_of_true (fun _ => takes_iff rfl) id

theorem agrees_truth_iff : truth.Agrees Reading.bool written ↔ ¬ truth.Strays Reading.bool written := by
  have htakes (b : Bool) : truth.Takes Reading.bool written b ↔ (Text.lower written == "true") = b :=
    (takes_iff rfl).trans (by rw [Reading.bool, Checked.valid.injEq])
  simp only [Agrees, htakes, bool_text_eq_valid_iff, Strays]
  -- what is true in a variable is a word for true in the file, so only other texts can stray
  by_cases htrue : Text.lower written = "true"
  · simp [htrue, boolWord?_of_lower htrue]
  · rw [beq_false_of_ne htrue]
    cases boolWord? written with
    | none => simp [htrue]
    | some b => cases b <;> simp [htrue]

theorem not_forall_isForeign_iff : (¬ ∀ c ∈ written.toList, isForeign c = false) ↔ ∃ c ∈ written.toList, isForeign c = true := by
  simp

theorem agrees_integer_iff {low high : Int} (hlow : 1 ≤ low) :
    integer.Agrees (integerIn low high) written ↔ ¬ integer.Strays (integerIn low high) written := by
  have htakes (i : Int) : integer.Takes (integerIn low high) written i ↔ wholeInteger written = .ok i ∧ low ≤ i ∧ i ≤ high := by
    have hint (j : Int) : Reading.integer (.int j) = .valid i ↔ j = i := by rw [Reading.integer, Checked.valid.injEq]
    cases hwhole : wholeInteger written with
    | error r => simp [Takes, read, hwhole]
    | ok j => rw [takes_iff (by rw [read, hwhole]; rfl), integerIn_eq_valid_iff, hint, Except.ok.injEq]
  have hsame (i : Int) : integerIn low high (.text written) = .valid i ∧ '.' ∉ written.toList ∧ Joins written ∧
      (written.toList.filter Char.isDigit).length ≤ digitLimit ↔
        (wholeInteger written = .ok i ∧ low ≤ i ∧ i ≤ high) ∧ ∀ c ∈ written.toList, isForeign c = false :=
    integerIn_text_iff hlow
  simp only [← htakes] at hsame
  -- each side of the comparison has forms of its own, and these are what strays
  refine (forall_iff_iff hsame fun i => not_isForeign_of_integerIn hlow).trans (not_congr (or_congr ?_ ?_))
  · exact and_congr_right fun _ => not_forall_isForeign_iff
  · exact and_congr_right fun _ => by simp only [not_and_or, not_not, Nat.not_le]

theorem agrees_number_iff {least most : Binary64} (hleast : Decimal.IsFinite least) (hmost : Decimal.IsFinite most) :
    number.Agrees (numberIn least most) written ↔ ¬ number.Strays (numberIn least most) written := by
  have htakes (x : Binary64) : number.Takes (numberIn least most) written x ↔
      wholeNumber written = .ok x ∧ x.lt least = false ∧ x.le most = true := by
    have hfloat (y : Binary64) : Reading.number (.float y) = .valid x ↔ y = x := by rw [Reading.number, Checked.valid.injEq]
    cases hwhole : wholeNumber written with
    | error r => simp [Takes, read, hwhole]
    | ok y => rw [takes_iff (by rw [read, hwhole]; rfl), numberIn_eq_valid_iff, hfloat, Except.ok.injEq]
  have hsame (x : Binary64) := numberIn_text_iff (s := written) (x := x) hleast hmost
  simp only [← htakes] at hsame
  have hdata (x : Binary64) (h : numberIn least most (.text written) = .valid x) := by
    obtain ⟨hnumber, hlow, hhigh⟩ := numberIn_eq_valid_iff.1 h
    exact of_number (isFinite_of_bounds hleast hmost hlow hhigh) hnumber
  refine (forall_iff_iff hsame hdata).trans (not_congr (or_congr ?_ Iff.rfl))
  exact and_congr_right fun _ => by rw [not_and_or, not_forall_isForeign_iff, Classical.not_imp]

end Environment.Form

namespace Settings

open Environment (Form)

variable {f : Field} {d : Data} {s : Settings} {name file written : String} {v : Environment.Variable}
  {vs : List Environment.Variable}

/-- **Of each setting with a variable it is known which texts stray.** -/
theorem Field.agrees_iff : ∀ f ∈ all, ∀ v, f.setBy = some v →
    (v.form.Agrees f.reading written ↔ ¬ v.form.Strays f.reading written) := by
  have hzero : Decimal.IsFinite (.ofInt 0) := isFinite_of_matches (by decide +kernel)
  have hhour : Decimal.IsFinite (.ofInt 3600) := isFinite_of_matches (by decide +kernel)
  simp only [all, connection, pass, guests, log, List.forall_mem_append, List.forall_mem_cons, Option.some.injEq, forall_eq',
    reduceCtorEq, false_implies, implies_true, true_and]
  refine ⟨⟨⟨?_, ?_⟩, List.forall_mem_nil _⟩, ?_⟩
  · exact ⟨Form.agrees_text_iff, Form.agrees_integer_iff (Int.le_refl 1), Form.agrees_truth_iff, List.forall_mem_nil _⟩
  · exact ⟨Form.agrees_integer_iff (Int.le_refl 1), Form.agrees_truth_iff, Form.agrees_number_iff hzero hhour,
      List.forall_mem_nil _⟩
  · exact ⟨Form.agrees_text_iff, Form.agrees_text_iff, List.forall_mem_nil _⟩

/-- Each variable belongs to a setting. -/
theorem Field.exists_of_variable : ∀ s ∈ Environment.sections, ∀ v ∈ s.2, ∃ f ∈ all,
    f.sectionName = s.1 ∧ f.key = v.key ∧ f.setBy = some v := by
  have hat {p : Field → Prop} (n : Nat) (hn : n < all.length) (h : p all[n]) : ∃ f ∈ all, p f := ⟨_, List.getElem_mem hn, h⟩
  simp only [Environment.sections, List.forall_mem_cons]
  refine ⟨⟨?_, ?_, ?_, List.forall_mem_nil _⟩, ⟨?_, ?_, ?_, List.forall_mem_nil _⟩, ⟨?_, ?_, List.forall_mem_nil _⟩,
    List.forall_mem_nil _⟩
  · exact hat 0 (by decide) ⟨rfl, rfl, rfl⟩
  · exact hat 1 (by decide) ⟨rfl, rfl, rfl⟩
  · exact hat 2 (by decide) ⟨rfl, rfl, rfl⟩
  · exact hat 3 (by decide) ⟨rfl, rfl, rfl⟩
  · exact hat 4 (by decide) ⟨rfl, rfl, rfl⟩
  · exact hat 5 (by decide) ⟨rfl, rfl, rfl⟩
  · exact hat 18 (by decide) ⟨rfl, rfl, rfl⟩
  · exact hat 19 (by decide) ⟨rfl, rfl, rfl⟩

/-- Results are the same if there is one on both sides or on neither, and a part of them tells them apart. -/
theorem toOption_eq_iff {σ ε α : Type} {x y : Except ε σ} (value : σ → α)
    (hvalue : ∀ s s', x = .ok s → y = .ok s' → value s = value s' → s = s') :
    x.toOption = y.toOption ↔ ∀ a, (∃ s, x = .ok s ∧ value s = a) ↔ ∃ s, y = .ok s ∧ value s = a := by
  cases x with
  | error e =>
    cases y with
    | error e' => exact iff_of_true rfl fun a => iff_of_false nofun nofun
    | ok s' => exact iff_of_false nofun fun h => nomatch (h (value s')).2 ⟨s', rfl, rfl⟩
  | ok s =>
    constructor
    · intro h a
      cases y with
      | error e' => exact nomatch h
      | ok s' => rw [Option.some.inj h]
    · intro h
      obtain ⟨s', hy, hsame⟩ := (h (value s)).1 ⟨s, rfl, rfl⟩
      rw [hy, hvalue s s' rfl hy hsame.symm]

theorem exists_of_load_setting (hwritten : written ≠ "") (hname : (name, vs) ∈ Environment.sections) (hv : v ∈ vs)
    (h : load none (.setting v.name written) = .ok s) :
    ∃ d, v.form.read written = .ok d ∧ ofSections (assigning name v.key d) = .ok s := by
  rw [load_setting hwritten hname hv] at h
  cases hread : v.form.read written with
  | error r => rw [hread] at h; exact nomatch h
  | ok d => rw [hread] at h; exact ⟨d, rfl, h⟩

/-- Whether a key is one of the two on which it hangs whether a pass is dry. -/
def IsProtective (name key : String) : Prop := name = "libvirt" ∧ key = "readonly" ∨ name = "reconcile" ∧ key = "dry_run"

theorem isDry_of_assigning {key : String} (hkey : IsProtective name key) (h : ofSections (assigning name key d) = .ok s) :
    Reading.bool d = .valid (s.isDry none) := by
  have hreadonly : Field.all[2] ∈ Field.all := List.getElem_mem _
  have hdryRun : Field.all[4] ∈ Field.all := List.getElem_mem _
  -- the other key has its default, which is off
  rcases hkey with ⟨rfl, rfl⟩ | ⟨rfl, rfl⟩
  · obtain ⟨hread, hothers⟩ := of_assigning hreadonly h
    have hoff : s.pass.dryRun = false := hothers _ hdryRun (by decide)
    rw [isDry, Option.getD_none, hoff, Bool.false_or]
    exact hread
  · obtain ⟨hread, hothers⟩ := of_assigning hdryRun h
    have hoff : s.connection.readonly = false := hothers _ hreadonly (by decide)
    rw [isDry, Option.getD_none, hoff, Bool.or_false]
    exact hread

theorem exists_of_assigning_bool {key : String} (hkey : IsProtective name key) (b : Bool) :
    ∃ s, ofSections (assigning name key (.bool b)) = .ok s ∧ s.isDry none = b := by
  obtain ⟨s, hs⟩ : ∃ s, ofSections (assigning name key (.bool b)) = .ok s := by
    rcases hkey with ⟨rfl, rfl⟩ | ⟨rfl, rfl⟩
    · exact exists_of_isValid (isValid_assigning Field.all[2] (List.getElem_mem _) _ ⟨b, rfl⟩)
    · exact exists_of_isValid (isValid_assigning Field.all[4] (List.getElem_mem _) _ ⟨b, rfl⟩)
  exact ⟨s, hs, (Checked.valid.inj (isDry_of_assigning hkey hs)).symm⟩

/-- **A text comes to the same in a variable and in the file, unless it strays.** A dry run is asked for by one word in a
variable, and by each of the words for true in the file. -/
theorem toOption_load_eq_iff (hwritten : written ≠ "") (hname : (name, vs) ∈ Environment.sections) (hv : v ∈ vs)
    (hfile : contents (some file) = .ok (assigning name v.key (.text written))) :
    ∃ f ∈ Field.all, f.sectionName = name ∧ f.key = v.key ∧ f.setBy = some v ∧
      ((load none (.setting v.name written)).toOption = (load (some file) fun _ => none).toOption ↔
        ¬ v.form.Strays f.reading written) ∧
      (v.form = .truth →
        (∃ s, load none (.setting v.name written) = .ok s ∧ (s.isDry none = true ↔ Text.lower written = "true")) ∧
          ∀ s, load (some file) (fun _ => none) = .ok s → (s.isDry none = true ↔ boolWord? written = some true)) := by
  obtain ⟨f, hf, rfl, hkey, hsetBy⟩ := Field.exists_of_variable _ hname v hv
  rw [load_file hfile]
  refine ⟨f, hf, rfl, hkey, hsetBy, ?_, fun hform => ?_⟩
  · -- the settings are compared by the one that is set, for the others have their defaults in both
    rw [← Field.agrees_iff f hf v hsetBy]
    refine (toOption_eq_iff f.value fun s s' hs hs' => ?_).trans (forall_congr' fun a => iff_congr ?_ ?_)
    · obtain ⟨d, -, hd⟩ := exists_of_load_setting hwritten hname hv hs
      rw [← hkey] at hd hs'
      exact eq_of_assigning hf hd hs'
    · constructor
      · rintro ⟨s, hs, rfl⟩
        obtain ⟨d, hread, hd⟩ := exists_of_load_setting hwritten hname hv hs
        rw [← hkey] at hd
        exact ⟨d, hread, (ofSections_assigning_iff hf).2 ⟨s, hd, rfl⟩⟩
      · rintro ⟨d, hread, hd⟩
        rw [load_setting hwritten hname hv, hread, ← hkey]
        exact (ofSections_assigning_iff hf).1 hd
    · rw [← hkey]
      exact (ofSections_assigning_iff hf).symm
  · -- the variables for truth values belong to the two keys on which a dry run hangs
    have hkeys : ∀ s ∈ Environment.sections, ∀ v ∈ s.2, v.form = .truth → IsProtective s.1 v.key := by
      unfold IsProtective
      decide
    have hpair := hkeys _ hname v hv hform
    constructor
    · obtain ⟨s, hs, hdry⟩ := exists_of_assigning_bool hpair (Text.lower written == "true")
      refine ⟨s, ?_, by rw [hdry, beq_iff_eq]⟩
      rw [load_setting hwritten hname hv, hform]
      exact hs
    · intro s hs
      rw [bool_text_eq_valid_iff.1 (isDry_of_assigning hpair hs), Option.some.injEq]

/-- The section, the key and the text that data consists of, if that is all. -/
def assignment? : Except SettingsError Data → Option (String × String × String)
  | .ok (.mapping [(.text name, .mapping [(.text key, .scalar (.text written))])]) => some (name, key, written)
  | _ => none

theorem eq_assigning {x : Except SettingsError Data} {key : String} (h : assignment? x = some (name, key, written)) :
    x = .ok (assigning name key (.text written)) := by
  unfold assignment? at h
  split at h
  · obtain ⟨rfl, rfl, rfl⟩ := Prod.mk.injEq _ _ _ _ ▸ Option.some.inj h
    rfl
  · exact nomatch h

/-- A dry run is asked for alike by `True`. -/
theorem toOption_load_eq_withTrue :
    contents (some "reconcile:\n  dry_run: 'True'") = .ok (assigning "reconcile" "dry_run" (.text "True")) ∧
      (load none (.setting "RECONCILE_DRY_RUN" "True")).toOption =
        (load (some "reconcile:\n  dry_run: 'True'") fun _ => none).toOption ∧
      (load none (.setting "RECONCILE_DRY_RUN" "True")).toOption.map (·.isDry none) = some true := by
  have hname : ("reconcile", [⟨"RECONCILE_MAX_WORKERS", "max_workers", .integer⟩, ⟨"RECONCILE_DRY_RUN", "dry_run", .truth⟩,
      ⟨"RECONCILE_SHUTDOWN_TIMEOUT", "shutdown_timeout", .number⟩]) ∈ Environment.sections := by decide
  have hlower : Text.lower "True" = "true" := by decide +kernel
  have hfile : contents (some "reconcile:\n  dry_run: 'True'") = .ok (assigning "reconcile" "dry_run" (.text "True")) :=
    eq_assigning (by decide +kernel)
  obtain ⟨f, -, -, -, -, hsame, hprotects⟩ := toOption_load_eq_iff (by decide) hname
    (List.mem_cons_of_mem _ List.mem_cons_self) hfile
  refine ⟨hfile, hsame.2 fun hstrays => hstrays.1 hlower, ?_⟩
  obtain ⟨⟨s, hs, hdry⟩, -⟩ := hprotects rfl
  rw [hs]
  exact congrArg some (hdry.2 hlower)

/-- A connection that shall only read is asked for by `yes` in the file, and not in a variable. -/
theorem toOption_load_ne_withYes :
    contents (some "libvirt:\n  readonly: 'yes'") = .ok (assigning "libvirt" "readonly" (.text "yes")) ∧
      (load none (.setting "LIBVIRT_READONLY" "yes")).toOption ≠
        (load (some "libvirt:\n  readonly: 'yes'") fun _ => none).toOption ∧
      (load none (.setting "LIBVIRT_READONLY" "yes")).toOption.map (·.isDry none) = some false ∧
      (load (some "libvirt:\n  readonly: 'yes'") fun _ => none).toOption.map (·.isDry none) = some true :=
  ⟨eq_assigning (by decide +kernel), by decide +kernel, by decide +kernel, by decide +kernel⟩

end Settings

end VirtualTopology
