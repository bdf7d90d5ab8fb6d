import VirtualTopology.Proofs.Pass.Turns

/-!
# Cancelled passes

A pass that is cancelled ends with the work in progress. Its run is cut into three (`Turns.exists_cut`): the turns
that are over, the turn in progress, and the turns that come too late. Behind the cancellation nothing is changed but
by the turn in progress, and no result tells of work, unless it is about the resource of a turn that came before
(`Settings.cancellation_stops`).

The moment of cancellation is the number of a query: `since ≤ n` says that the pass has been cancelled when the
query with number `n` comes, so that it may be cancelled before the pass and during any call. A host may cancel the
pass on its own, too.
-/

namespace VirtualTopology

/-- The moment from which on a pass is cancelled, as an answer to whether it has been cancelled at a query. -/
def cancelledSince (since : Nat) : Nat → Bool := fun n => decide (since ≤ n)

/-- **A cancelled run is cut into three**: turns before the cancellation, the last of which is in progress when the
pass is cancelled, and turns behind it. -/
theorem Turns.exists_cut {w w' : Watched} {ts : List Turn} (h : Turns w ts w') (since : Nat) :
    ∃ (past : List Turn) (current : Option Turn) (late : List Turn), ts = past ++ current.toList ++ late ∧
      (∀ T ∈ past ++ current.toList, T.isLate (cancelledSince since) = false) ∧
      (current = none → past = []) ∧ ∀ T ∈ late, T.isLate (cancelledSince since) = true := by
  induction ts generalizing w with
  | nil => exact ⟨[], none, [], rfl, by simp, fun _ => rfl, by simp⟩
  | cons T ts ih =>
    cases hT : T.isLate (cancelledSince since) with
    | true =>
      -- the pass has been cancelled before this turn, and stays so
      refine ⟨[], none, T :: ts, rfl, by simp, fun _ => rfl, fun T' hT' => ?_⟩
      have hstart : T.start = w := by
        cases h
        rfl
      exact (hstart ▸ h.precedes_start hT').reply_cancelled hT
    | false =>
      cases h with
      | cons _ _ htail =>
        obtain ⟨past, current, late, rfl, hbefore, hnone, hlate⟩ := ih htail
        cases current with
        | none =>
          obtain rfl := hnone rfl
          exact ⟨[], some T, late, rfl, by simpa using hT, fun h => absurd h (by simp), hlate⟩
        | some T' =>
          refine ⟨T :: past, some T', late, rfl, fun x hx => ?_, fun h => absurd h (by simp), hlate⟩
          rcases List.mem_cons.1 hx with rfl | hx
          · exact hT
          · exact hbefore x hx

/-- How a pass that is cancelled falls into turns. -/
structure Desired.StopsShort (d : Desired) (since : Nat) (past : List Turn) (current : Option Turn)
    (late : List Turn) : Prop where
  /-- Turns come before the cancellation, each with the changes of its errand only; one of them is in progress when
  the pass is cancelled, and the others are over. -/
  begun : ∀ T ∈ past ++ current.toList,
    T.isLate (cancelledSince since) = false ∧ T.Proper d (cancelledSince since)
  current : current = none → past = []
  /-- Behind the cancellation nothing is changed and no work is told. -/
  late : ∀ T ∈ late, T.isLate (cancelledSince since) = true ∧ changes T.calls = [] ∧
    ∀ x ∈ T.results, d.TellsNoWork x

namespace Desired.StopsShort

variable {d : Desired} {since : Nat} {past late : List Turn} {current : Option Turn}

/-- Proper turns that are cut at the cancellation stop short. -/
theorem of_proper (hbefore : ∀ T ∈ past ++ current.toList, T.isLate (cancelledSince since) = false)
    (hcurrent : current = none → past = []) (hlate : ∀ T ∈ late, T.isLate (cancelledSince since) = true)
    (hproper : ∀ T ∈ past ++ current.toList ++ late, T.Proper d (cancelledSince since)) :
    d.StopsShort since past current late where
  begun T hT := ⟨hbefore T hT, hproper T (List.mem_append_left _ hT)⟩
  current := hcurrent
  late T hT := ⟨hlate T hT, (hproper T (List.mem_append_right _ hT)).idle (.inr (hlate T hT))⟩

/-- **What is told of work is told of an errand that was begun** before the cancellation. -/
theorem tells_of_begun (h : d.StopsShort since past current late) {x : Result}
    (hx : x ∈ (past ++ current.toList ++ late).flatMap (·.results)) :
    d.TellsNoWork x ∨ ∃ T ∈ past ++ current.toList, ∃ e, T.errand = some e ∧ x.key = e.key := by
  obtain ⟨T, hT, hxT⟩ := List.mem_flatMap.1 hx
  rcases List.mem_append.1 hT with hT | hT
  · have hproper := (h.begun T hT).2
    cases herrand : T.errand with
    | none => exact .inl ((hproper.idle (.inl herrand)).2 x hxT)
    | some e => exact .inr ⟨T, hT, e, herrand, hproper.about e herrand x hxT⟩
  · exact .inl ((h.late T hT).2.2 x hxT)

end Desired.StopsShort

end VirtualTopology
