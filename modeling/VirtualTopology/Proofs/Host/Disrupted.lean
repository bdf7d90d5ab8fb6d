import VirtualTopology.Proofs.Host.Serving

/-!
# Struck calls

Whether a call is struck depends on the disruptions that are meant for its word, and a call with another
word leaves these as they are (`Disruption.filter_strike?`). So a dialogue without calls of a word does not
change what strikes calls of that word (`Memory.strikes_run`).
-/

namespace VirtualTopology

namespace Disruption

variable {ε : Type} {word other : String}

/-- A call with another word leaves the disruptions for a word as they are. -/
theorem filter_strike? (hne : other ≠ word) (subject : String) (ds : List (Disruption ε)) :
    (strike? other subject ds).2.filter (·.word == word) = ds.filter (·.word == word) := by
  induction ds with
  | nil => rfl
  | cons d ds ih =>
    rw [strike?]
    by_cases hconcerns : d.concerns other subject = true
    · have hother : (d.word == word) = false := by
        simp only [concerns, Bool.and_eq_true, beq_iff_eq] at hconcerns
        simpa [hconcerns.1] using hne
      rw [if_pos hconcerns]
      -- the disruption may be used up, but its word stays
      cases hstruck : d.struck? with
      | some d' =>
        have hword : d'.word = d.word := by
          unfold struck? at hstruck
          split at hstruck
          · exact absurd hstruck (by simp)
          · split at hstruck
            · rw [← Option.some.inj hstruck]
            · split at hstruck
              · exact absurd hstruck (by simp)
              · split at hstruck
                · rw [← Option.some.inj hstruck]
                · rw [← Option.some.inj hstruck]
        simp [hword, hother]
      | none =>
        have hword : d.passed.word = d.word := by
          unfold passed
          split <;> rfl
        simp [hword, hother, ih]
    · rw [if_neg hconcerns]
      simp [List.filter_cons, ih]

/-- Whether a call is struck depends on the disruptions for its word. -/
theorem strike?_filter (subject : String) (ds : List (Disruption ε)) :
    (strike? word subject (ds.filter (·.word == word))).1 = (strike? word subject ds).1 := by
  induction ds with
  | nil => rfl
  | cons d ds ih =>
    by_cases hword : (d.word == word) = true
    · rw [List.filter_cons, if_pos hword, strike?, strike?]
      split
      · cases d.struck? with
        | some d' => rfl
        | none => exact ih
      · exact ih
    · have hspared : d.concerns word subject = false := by simp [concerns, hword]
      rw [List.filter_cons, if_neg hword, ih]
      simp [strike?, hspared]

end Disruption

/-- A call about a resource has another word than a list call. -/
theorem Call.IsAbout.word_ne {k l : DefinedKind} {name : String} {c : Call} (h : c.IsAbout k name) :
    c.word ≠ (Call.list l).word := by
  cases c with
  | list k' => exact absurd h (by simp [IsAbout, target])
  | read k' _ | define k' _ | undefine k' _ | start k' _ | stop k' _ _ | isActive k' _ | isAutostart k' _
  | setAutostart k' _ _ =>
    cases k' <;> cases l <;> simp +decide [word, DefinedKind.word, DefinedKind.plural]
  | listVolumes _ | readVolume _ _ | createVolume _ _ | deleteVolume _ _ | resizeVolume _ _ _ =>
    cases l <;> simp +decide [word, DefinedKind.plural]

namespace Memory

variable {m : Memory} {c : Call}

/-- Whether a call would be struck. -/
def Strikes (m : Memory) (c : Call) : Prop :=
  (Disruption.strike? c.word c.subject m.disruptions).1.isSome = true

theorem disruptions_answer (m : Memory) (q : Query) :
    (m.answer q).2.disruptions =
      match q with
      | .call c => (Disruption.strike? c.word c.subject m.disruptions).2
      | _ => m.disruptions := by
  cases q with
  | call c =>
    show (m.call c).2.disruptions = _
    rw [call_eq]
    split
    · rfl
    · split <;> rfl
  | cancelled => rfl
  | now => rfl
  | sleep _ => rfl

/-- **A dialogue without calls of a word leaves it as it is whether they are struck.** -/
theorem strikes_run {α : Type} {d : Talk α} {e : α → Prop}
    (h : d.Confined (Query.CallsOnly fun c' => c'.word ≠ c.word) e) (m : Memory) :
    (m.run d).2.Strikes c ↔ m.Strikes c := by
  have hsame : (m.run d).2.disruptions.filter (·.word == c.word)
      = m.disruptions.filter (·.word == c.word) := by
    refine run_invariant h (I := fun s => s.disruptions.filter (·.word == c.word)
      = m.disruptions.filter (·.word == c.word)) (fun s q hq hs => ?_) rfl
    rw [disruptions_answer]
    cases q with
    | call c' => exact (Disruption.filter_strike? hq _ _).trans hs
    | cancelled => exact hs
    | now => exact hs
    | sleep _ => exact hs
  rw [Strikes, Strikes, ← Disruption.strike?_filter, hsame, Disruption.strike?_filter]

/-- A list call fails exactly if it is struck. -/
theorem call_list_eq_error_iff (m : Memory) (k : DefinedKind) :
    (∃ e, (m.call (.list k)).1 = .error e) ↔ m.Strikes (.list k) := by
  have hreceive : (m.receive (.list k)).1.isSome = true ↔ m.Strikes (.list k) := by
    simp [receive, Strikes]
  rw [← hreceive, call_eq]
  cases (m.receive (.list k)).1 with
  | some e => simp
  | none => simp [Tables.serve]

end Memory

end VirtualTopology
