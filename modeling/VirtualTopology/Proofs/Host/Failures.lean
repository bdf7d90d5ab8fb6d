import VirtualTopology.Proofs.Host.Disrupted

/-!
# How calls fail

What disruptions come to for a call is how it fails the first time it is made, the second time, and so on
(`Call.failures`). A steady disruption strikes every call that it is meant for, or none. One that counts its
calls is addressed if all of them are about one subject (`Disruption.IsAddressed`). If all disruptions are
addressed, a call moves on what is in store for calls with its word and subject (`Call.failures_succ`), and
takes nothing from what is in store for others (`Call.failures_strike?_of_key_ne`).
-/

namespace VirtualTopology

namespace Disruption

variable {ε : Type} {d d' : Disruption ε} {ds : List (Disruption ε)} {word subject : String}

/-! ### Disruptions that do not count -/

/-- Whether a disruption lets no call pass first and does not wear off. -/
def IsSteady (d : Disruption ε) : Prop := d.skip ≤ 0 ∧ ∀ n, d.times = some n → n ≤ 0

/-- Whether a disruption is steady, or counts calls about one subject only. -/
def IsAddressed (d : Disruption ε) : Prop :=
  d.IsSteady ∨ ∀ c c' : Call, d.concerns c.word c.subject = true → d.concerns c'.word c'.subject = true →
    c.subject = c'.subject

/-- What a call can make of a disruption: nothing but its numbers change, and not those of a steady one. -/
structure Becomes (d d' : Disruption ε) : Prop where
  word : d'.word = d.word
  subject : d'.subject = d.subject
  steady : d.IsSteady → d' = d

namespace Becomes

theorem refl (d : Disruption ε) : d.Becomes d := ⟨rfl, rfl, fun _ => rfl⟩

theorem struck (h : d.struck? = some d') : d.Becomes d' := by
  unfold struck? at h
  split at h
  · exact absurd h (by simp)
  · split at h
    · obtain rfl := Option.some.inj h
      exact .refl d
    · next n hn =>
      split at h
      · exact absurd h (by simp)
      · split at h
        · next hpos =>
          obtain rfl := Option.some.inj h
          exact ⟨rfl, rfl, fun hs => absurd (hs.2 n hn) (by omega)⟩
        · obtain rfl := Option.some.inj h
          exact .refl d

theorem passed (d : Disruption ε) : d.Becomes d.passed := by
  unfold Disruption.passed
  split
  · next hpos => exact ⟨rfl, rfl, fun hs => absurd hs.1 (by omega)⟩
  · exact .refl d

theorem concerns_eq (h : d.Becomes d') (word subject : String) :
    d'.concerns word subject = d.concerns word subject := by
  rw [concerns, concerns, h.word, h.subject]

theorem isSteady (h : d.Becomes d') (hd : d.IsSteady) : d'.IsSteady := h.steady hd ▸ hd

theorem isAddressed (h : d.Becomes d') (hd : d.IsAddressed) : d'.IsAddressed := by
  refine hd.imp h.isSteady fun hone c c' hc hc' => hone c c' ?_ ?_
  · rwa [h.concerns_eq] at hc
  · rwa [h.concerns_eq] at hc'

end Becomes

/-- **What a call makes of the disruptions**, one by one. -/
theorem exists_becomes_of_mem (h : d' ∈ (strike? word subject ds).2) : ∃ d ∈ ds, d.Becomes d' := by
  induction ds with
  | nil => exact absurd h (by simp)
  | cons d ds ih =>
    have hrest : d' ∈ (strike? word subject ds).2 → ∃ x ∈ d :: ds, x.Becomes d' := fun h' =>
      have ⟨x, hx, hbecomes⟩ := ih h'
      ⟨x, by simp [hx], hbecomes⟩
    rw [strike?] at h
    split at h
    · cases hstruck : d.struck? with
      | some x =>
        rw [hstruck] at h
        rcases List.mem_cons.1 h with rfl | hmem
        · exact ⟨d, by simp, .struck hstruck⟩
        · exact ⟨d', by simp [hmem], .refl d'⟩
      | none =>
        rw [hstruck] at h
        rcases List.mem_cons.1 h with rfl | hmem
        · exact ⟨d, by simp, .passed d⟩
        · exact hrest hmem
    · rcases List.mem_cons.1 h with rfl | hmem
      · exact ⟨d', by simp, .refl d'⟩
      · exact hrest hmem

/-- Steady disruptions are left as they are. -/
theorem strike?_eq_self (h : ∀ d ∈ ds, d.concerns word subject = true → d.IsSteady) :
    (strike? word subject ds).2 = ds := by
  induction ds with
  | nil => rfl
  | cons d ds ih =>
    have hrest : (strike? word subject ds).2 = ds := ih fun x hx => h x (by simp [hx])
    rw [strike?]
    split
    · next hconcerns =>
      have hsteady := h d (by simp) hconcerns
      cases hstruck : d.struck? with
      | some d' => rw [(Becomes.struck hstruck).steady hsteady]
      | none => simp only [hrest, (Becomes.passed d).steady hsteady]
    · simp only [hrest]

/-! ### The disruptions for one word and subject -/

/-- What becomes of the disruptions for a word and subject depends on these only. -/
theorem strike?_filter_concerns (word subject : String) (ds : List (Disruption ε)) :
    strike? word subject (ds.filter (·.concerns word subject)) =
      ((strike? word subject ds).1, (strike? word subject ds).2.filter (·.concerns word subject)) := by
  induction ds with
  | nil => rfl
  | cons d ds ih =>
    by_cases hconcerns : d.concerns word subject = true
    · rw [List.filter_cons, if_pos hconcerns, strike?, strike?, if_pos hconcerns, if_pos hconcerns]
      cases hstruck : d.struck? with
      | some d' =>
        have hd' : d'.concerns word subject = true := by
          rw [(Becomes.struck hstruck).concerns_eq, hconcerns]
        simp [hd']
      | none =>
        have hd' : d.passed.concerns word subject = true := by
          rw [(Becomes.passed d).concerns_eq, hconcerns]
        simp [ih, hd']
    · rw [List.filter_cons, if_neg hconcerns, ih, strike?, if_neg hconcerns]
      simp [hconcerns]

end Disruption

namespace Call

open Disruption

variable {c c' : Call} {ds : List (Disruption HostErrorKind)}

/-- The word and the subject of a call. -/
def key (c : Call) : String × String := (c.word, c.subject)

/-- How a call fails under disruptions: the first time it is made, the second time, and so on. -/
def failures (c : Call) : List (Disruption HostErrorKind) → Nat → Option HostError
  | ds, 0 => (strike? c.word c.subject ds).1.map (Memory.disruptionError c)
  | ds, n + 1 => c.failures (strike? c.word c.subject ds).2 n

@[simp] theorem failures_zero (c : Call) (ds : List (Disruption HostErrorKind)) :
    c.failures ds 0 = (strike? c.word c.subject ds).1.map (Memory.disruptionError c) := rfl

/-- A call moves on what is in store for it. -/
theorem failures_succ (c : Call) (ds : List (Disruption HostErrorKind)) (n : Nat) :
    c.failures ds (n + 1) = c.failures (strike? c.word c.subject ds).2 n := rfl

/-- Calls with the same word and subject fail alike. -/
theorem failures_of_key_eq (h : c.key = c'.key) : c.failures ds = c'.failures ds := by
  obtain ⟨hword, hsubject⟩ := Prod.mk.inj h
  have herror : Memory.disruptionError c = Memory.disruptionError c' := by
    funext d
    rw [Memory.disruptionError, Memory.disruptionError, hword, hsubject]
  funext n
  induction n generalizing ds with
  | zero => rw [failures_zero, failures_zero, hword, hsubject, herror]
  | succ n ih => rw [failures_succ, failures_succ, hword, hsubject, ih]

/-- How a call fails depends on the disruptions that are meant for it. -/
theorem failures_filter (c : Call) (ds : List (Disruption HostErrorKind)) :
    c.failures (ds.filter (·.concerns c.word c.subject)) = c.failures ds := by
  funext n
  induction n generalizing ds with
  | zero => rw [failures_zero, failures_zero, strike?_filter_concerns]
  | succ n ih => rw [failures_succ, failures_succ, strike?_filter_concerns, ih]

/-- **A call takes nothing from what is in store for calls with another word or subject**, if all
disruptions are addressed. -/
theorem failures_strike?_of_key_ne (h : ∀ d ∈ ds, d.IsAddressed) (hne : c.key ≠ c'.key) :
    c.failures (strike? c'.word c'.subject ds).2 = c.failures ds := by
  have hsame : (strike? c'.word c'.subject ds).2.filter (·.concerns c.word c.subject)
      = ds.filter (·.concerns c.word c.subject) := by
    induction ds with
    | nil => rfl
    | cons d ds ih =>
      have hrest := ih fun x hx => h x (by simp [hx])
      rw [strike?]
      split
      · next hother =>
        by_cases hconcerns : d.concerns c.word c.subject = true
        · -- a disruption for both calls does not count
          have hsteady : d.IsSteady := by
            refine (h d (by simp)).resolve_right fun hone => hne (Prod.ext ?_ ?_)
            · simp only [concerns, Bool.and_eq_true, beq_iff_eq] at hconcerns hother
              exact hconcerns.1.symm.trans hother.1
            · exact hone c c' hconcerns hother
          cases hstruck : d.struck? with
          | some d' => rw [(Becomes.struck hstruck).steady hsteady]
          | none => simp [(Becomes.passed d).steady hsteady, List.filter_cons, hrest]
        · cases hstruck : d.struck? with
          | some d' => simp [(Becomes.struck hstruck).concerns_eq, hconcerns]
          | none => simp [(Becomes.passed d).concerns_eq, hconcerns, hrest]
      · simp [List.filter_cons, hrest]
  rw [← failures_filter c ds, ← hsame, failures_filter]

/-- **What is in store for a call after another has been made** depends on what was in store for it before. -/
theorem failures_strike?_congr {ds' : List (Disruption HostErrorKind)} (h : ∀ d ∈ ds, d.IsAddressed)
    (h' : ∀ d ∈ ds', d.IsAddressed) (hsame : c.failures ds = c.failures ds') (c' : Call) :
    c.failures (strike? c'.word c'.subject ds).2 = c.failures (strike? c'.word c'.subject ds').2 := by
  by_cases hkey : c.key = c'.key
  · funext n
    obtain ⟨hword, hsubject⟩ := Prod.mk.inj hkey
    rw [← hword, ← hsubject, ← failures_succ, ← failures_succ, hsame]
  · rw [failures_strike?_of_key_ne h hkey, failures_strike?_of_key_ne h' hkey, hsame]

/-! ### What the word and the subject of a call tell -/

/-- The volume that a call is about. -/
def volume? : Call → Option String
  | createVolume _ document => some (nameInDocument document)
  | readVolume _ name | deleteVolume _ name | resizeVolume _ name _ => some name
  | _ => none

/-- What the word of a call tells: the kind of the resource that it goes to, whether it is about a volume, and
whether it names anything. -/
def sort (c : Call) : DefinedKind × Bool × Bool := (c.target.1, c.volume?.isSome, c.target.2.isSome)

/-- A call of each word. -/
def samples : List Call :=
  ([.network, .pool, .domain] : List DefinedKind).flatMap (fun k =>
    [list k, read k "", define k "", undefine k "", start k "", stop k "" true, isActive k "", isAutostart k "",
      setAutostart k "" true]) ++
  [listVolumes "", readVolume "" "", createVolume "" "", deleteVolume "" "", resizeVolume "" "" 0]

theorem lookup_word (c : Call) : (samples.map fun s => (s.word, s.sort)).lookup c.word = some c.sort := by
  cases c with
  | list k | read k _ | define k _ | undefine k _ | start k _ | stop k _ _ | isActive k _ | isAutostart k _
  | setAutostart k _ _ => cases k <;> rfl
  | listVolumes _ | readVolume _ _ | createVolume _ _ | deleteVolume _ _ | resizeVolume _ _ _ => rfl

theorem sort_eq_of_word_eq (h : c.word = c'.word) : c.sort = c'.sort :=
  Option.some.inj (by rw [← lookup_word, ← lookup_word, h])

/-- The subject of a call is the name of the resource, or the label of the volume, that it is about. -/
theorem subject_eq (c : Call) :
    c.subject = c.volume?.elim (c.target.2.getD "") fun volume => volumeLabel (c.target.2.getD "") volume := by
  cases c <;> rfl

/-- **Calls with the same word and subject go to the same resource**, unless they are about volumes. -/
theorem target_eq_of_key_eq (h : c.key = c'.key) (hv : c.volume? = none) : c.target = c'.target := by
  obtain ⟨hword, hsubject⟩ := Prod.mk.inj h
  obtain ⟨hkind, hrest⟩ := Prod.mk.inj (sort_eq_of_word_eq hword)
  obtain ⟨hvolume, hnamed⟩ := Prod.mk.inj hrest
  have hv' : c'.volume? = none := by simpa [hv] using hvolume
  rw [subject_eq, subject_eq, hv, hv'] at hsubject
  refine Prod.ext hkind ?_
  cases hn : c.target.2 with
  | none =>
    have hn' : c'.target.2 = none := by simpa [hn] using hnamed
    exact hn'.symm
  | some name =>
    rw [hn] at hnamed hsubject
    obtain ⟨name', hn'⟩ := Option.isSome_iff_exists.1 hnamed.symm
    rw [hn'] at hsubject ⊢
    exact congrArg some hsubject

/-- Calls about volumes with the same word and subject are about volumes with the same label. -/
theorem label_eq_of_key_eq {volume : String} (h : c.key = c'.key) (hv : c.volume? = some volume) :
    ∃ volume', c'.volume? = some volume' ∧
      volumeLabel (c.target.2.getD "") volume = volumeLabel (c'.target.2.getD "") volume' := by
  obtain ⟨hword, hsubject⟩ := Prod.mk.inj h
  have hvolume : c.volume?.isSome = c'.volume?.isSome :=
    congrArg (·.2.1) (sort_eq_of_word_eq hword)
  rw [hv] at hvolume
  obtain ⟨volume', hv'⟩ := Option.isSome_iff_exists.1 hvolume.symm
  rw [subject_eq, subject_eq, hv, hv'] at hsubject
  exact ⟨volume', hv', hsubject⟩

end Call

end VirtualTopology
