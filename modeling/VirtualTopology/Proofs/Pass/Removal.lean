import VirtualTopology.Pass.Removal
import VirtualTopology.Proofs.Pass.Pools

/-!
# Removed networks and pools

A network or pool that is reported deleted is gone, whatever failed around it (`Removal.run_run`). The work on it
goes to the resource itself and, before, to the domains that may refer to it (`Removal.confined_run`).
-/

namespace VirtualTopology

open Dialogue

namespace Removal

variable {kind : DefinedKind} {name : String} {polls : Table Int} {r : StoredResource}

/-! ### Removing one resource -/

/-- The work on a resource that is to be removed. -/
def remove (dry : Bool) (kind : DefinedKind) (name : String) : Work Result := do
  Work.change dry .undefine (.undefine kind name)
  return { kind := kind.resource, name, outcome := .deleted }

theorem task_eq (dry : Bool) (rs : List References) (kind : DefinedKind) (name : String) :
    task dry rs kind name =
      if (References.users rs kind name).isEmpty then
        do let ending ← supervise kind.resource name (remove dry kind name); return ending.recorded
      else return .ok [.stuck kind.resource name .undefine
        ("Still referenced by domain(s): " ++ ", ".intercalate (References.users rs kind name))
        .inUse] := rfl

theorem frank_remove (dry : Bool) (kind : DefinedKind) (name : String) :
    Frank (Call.IsProper dry kind name) (fun x => x.kind = kind.resource ∧ x.name = name)
      (remove dry kind name).run :=
  .seq (.change fun hd => ⟨rfl, fun hdry => absurd hdry (by simp [hd])⟩) fun _ => .pure ⟨rfl, rfl⟩

/-- The removal of a resource asks about the resource only, and so is its result. -/
theorem confined_task (dry : Bool) (rs : List References) (kind : DefinedKind) (name : String) :
    (task dry rs kind name).Confined (Query.CallsOnly (Call.IsProper dry kind name))
      (Recorded.All fun x => x.kind = kind.resource ∧ x.name = name) := by
  rw [task_eq]
  split
  · exact (frank_remove dry kind name).confined_recorded
  · exact Confined.pure ((Recorded.all_ok_iff _).2 (by simp [Result.stuck, Result.failure]))

/-- What the removal of a resource that is there comes to. -/
theorem ends_remove {t : Tables} (ht : t.get? kind name = some r) (dry : Bool) :
    Talk.Yields polls t (remove dry kind name).run
      (.ok { kind := kind.resource, name, outcome := .deleted })
      (if dry then t else t.erase kind name) := by
  have hundefine : t.serve polls (.undefine kind name) = .ok ((), t.erase kind name) := by
    rw [Tables.serve, Tables.find_eq_ok ht]
    rfl
  exact Talk.Yields.andThen (Talk.Yields.change hundefine) (Talk.Ends.pure ⟨rfl, rfl⟩)

/-- **A resource that is reported deleted is gone**, whatever failed around it. -/
theorem run_task {m : Memory} (hm : m.Uncancelled) (ht : m.tables.get? kind name = some r)
    {refs : List References} {rs : List Result}
    (hrs : (m.run (task false refs kind name)).1 = .ok rs) :
    ∃ x, rs = [x] ∧ x.kind = kind.resource ∧ x.name = name ∧
      (x.outcome = .failed ∨ x.outcome = .deleted ∧
        (m.run (task false refs kind name)).2.tables.get? kind name = none) := by
  rw [task_eq] at hrs ⊢
  split at hrs
  · next husers =>
    simp only [if_pos husers, Memory.run_bind, hm.run_supervise, Memory.run_pure] at hrs ⊢
    rcases Ending.recorded_of_eq_ok hrs with ⟨x, hx, rfl⟩ | ⟨op, reason, fk, rfl⟩
    · obtain ⟨heq, htables⟩ := (frank_remove false kind name).holds_of_run_eq_ok hx
        (ends_remove ht false)
      obtain rfl := Except.ok.inj heq
      refine ⟨_, rfl, rfl, rfl, .inr ⟨rfl, ?_⟩⟩
      rw [htables]
      simp [Tables.get?_erase]
    · exact ⟨_, rfl, rfl, rfl, .inl rfl⟩
  · exact ⟨_, (Except.ok.inj hrs).symm, rfl, rfl, .inl rfl⟩

/-! ### References -/

/-- Whether a call looks at the tables and leaves them as they are. -/
def Looks (c : Call) : Prop := c.isStill = true ∧ c.isReading = true

section

variable {p : Call → Prop} (hread : ∀ name, p (.read .domain name))

include hread

theorem confined_referencesOf (results : List Result) (domains : List String) :
    (referencesOf results domains).Confined (Query.CallsOnly p) fun _ => True := by
  induction domains with
  | nil => exact Confined.pure trivial
  | cons domain domains ih =>
    unfold referencesOf
    split
    · exact ih
    · refine Confined.bind (Confined.query (p := Query.CallsOnly p) (q := Query.call (.read .domain domain))
        (e := fun _ => True) (hread domain) fun _ => trivial) fun reply _ => ?_
      split
      · exact Confined.pure trivial
      · split
        · exact Confined.pure trivial
        · exact ih.bind fun _ _ => Confined.pure trivial

/-- To see what domains refer to, they are listed and read. -/
theorem confined_references_of (hlist : p (.list .domain)) (results : List Result) :
    (references results).Confined (Query.CallsOnly p) fun _ => True := by
  refine Confined.bind (Confined.query (p := Query.CallsOnly p) (q := Query.call (.list .domain))
    (e := fun _ => True) hlist fun _ => trivial) fun reply _ => ?_
  split
  · exact Confined.pure trivial
  · exact confined_referencesOf hread results _

end

theorem confined_references (results : List Result) :
    (references results).Confined (Query.CallsOnly Looks) fun _ => True :=
  confined_references_of (fun _ => ⟨rfl, rfl⟩) ⟨rfl, rfl⟩ results

/-! ### Removing several resources -/

/-- The results for stale resources are about them. -/
def Reports (stale : List (DefinedKind × String)) (x : Result) : Prop :=
  ∃ s ∈ stale, x.kind = s.1.resource ∧ x.name = s.2

/-- A removal lists and reads domains and asks about stale resources, and its results are about these. -/
theorem confined_run_of {p : Call → Prop} (hread : ∀ name, p (.read .domain name)) (hlist : p (.list .domain))
    (dry : Bool) (results : List Result) (stale : List (DefinedKind × String)) :
    (run dry results stale).Confined
      (Query.CallsOnly fun c => p c ∨ ∃ s ∈ stale, Call.IsProper dry s.1 s.2 c)
      (Recorded.All (Reports stale)) := by
  have hall : ∀ f : DefinedKind × String → Result,
      (∀ s, (f s).kind = s.1.resource ∧ (f s).name = s.2) →
      Recorded.All (Reports stale) (.ok (stale.map f)) := fun f hf =>
    (Recorded.all_ok_iff _).2 (List.forall_mem_map.2 fun s hs => ⟨s, hs, hf s⟩)
  unfold run
  split
  · exact Confined.pure ((Recorded.all_ok_iff []).2 (by simp))
  · refine Confined.bind (Confined.query (q := Query.cancelled) (e := fun _ => True) trivial
      fun _ => trivial) fun cancelled _ => ?_
    split
    · exact Confined.pure (hall _ fun _ => ⟨rfl, rfl⟩)
    · refine Confined.bind ((confined_references_of hread hlist results).mono
        (fun q hq => hq.mono fun c hc => .inl hc) fun _ => id) fun refs _ => ?_
      split
      · exact Confined.pure (hall _ fun _ => ⟨rfl, rfl⟩)
      · refine Confined.gather fun t ht => ?_
        obtain ⟨s, hs, rfl⟩ := List.mem_map.1 ht
        exact (confined_task dry _ s.1 s.2).mono
          (fun q hq => hq.mono fun c hc => .inr ⟨s, hs, hc⟩) fun _ hr => hr.mono fun x hx => ⟨s, hs, hx⟩

/-- A removal looks at domains and asks about stale resources, and its results are about these. -/
theorem confined_run (dry : Bool) (results : List Result) (stale : List (DefinedKind × String)) :
    (run dry results stale).Confined
      (Query.CallsOnly fun c => Looks c ∨ ∃ s ∈ stale, Call.IsProper dry s.1 s.2 c)
      (Recorded.All (Reports stale)) :=
  confined_run_of (fun _ => ⟨rfl, rfl⟩) ⟨rfl, rfl⟩ dry results stale

/-- What stays as it is while domains are looked at. -/
theorem tables_run_of_looks {α : Type} {d : Talk α} {e : α → Prop}
    (h : d.Confined (Query.CallsOnly Looks) e) (m : Memory) :
    (m.run d).2.tables = m.tables := by
  refine Memory.run_invariant h (I := fun s => s.tables = m.tables) (fun s q hq hs => ?_) rfl
  cases q with
  | call c =>
    rcases Memory.tables_call s c with heq | ⟨a, ha⟩
    · exact heq.trans hs
    · exact (Tables.eq_of_isStill ha hq.1).trans hs
  | cancelled => exact hs
  | now => exact hs
  | sleep _ => exact hs

/-- **Each stale resource has one result, and if it is reported deleted it is gone**, whatever failed around
it. -/
theorem run_run {m : Memory} (hm : m.Uncancelled) {stale : List (DefinedKind × String)}
    (hdistinct : stale.Nodup) (hthere : ∀ s ∈ stale, (m.tables.get? s.1 s.2).isSome = true)
    {results rs : List Result} (hrs : (m.run (run false results stale)).1 = .ok rs)
    {s : DefinedKind × String} (hs : s ∈ stale) :
    ∃ x : Result, x.IsSole rs ∧ x.kind = s.1.resource ∧ x.name = s.2 ∧
      (x.outcome = .failed ∨ x.outcome = .deleted ∧
        (m.run (run false results stale)).2.tables.get? s.1 s.2 = none) := by
  have hne : stale.isEmpty = false := by
    rw [List.isEmpty_eq_false_iff]
    exact List.ne_nil_of_mem hs
  have hask : m.run (Dialogue.query Query.cancelled : Talk Bool) = (false, m) :=
    congrArg (·, m) hm.cancelled
  unfold run at hrs ⊢
  simp only [hne, Bool.false_eq_true, if_false, Memory.run_bind, hask] at hrs ⊢
  have htables := tables_run_of_looks (confined_references results) m
  have huncancelled : (m.run (references results)).2.Uncancelled := hm.run _
  generalize m.run (references results) = refs at hrs htables huncancelled ⊢
  obtain ⟨reply, n⟩ := refs
  -- if the references are not known nothing is removed, and each result says so
  cases reply with
  | error reason =>
    rw [← Except.ok.inj hrs]
    refine ⟨.stuck s.1.resource s.2 .checkReferences reason, ⟨List.mem_map.2 ⟨s, hs, rfl⟩, ?_⟩, rfl, rfl,
      .inl rfl⟩
    rintro y hy hkind hname
    obtain ⟨s', -, rfl⟩ := List.mem_map.1 hy
    show Result.stuck s'.1.resource s'.2 .checkReferences reason = _
    rw [show s'.1.resource = s.1.resource from hkind, show s'.2 = s.2 from hname]
  | ok refs =>
    refine Memory.run_gather_single (m := n) Prod.fst Prod.snd (e := fun _ => True)
      (Q := fun s x after => x.outcome = .failed ∨ x.outcome = .deleted ∧ after = none)
      (by simpa using hdistinct) (fun s _ => (confined_task false refs s.1 s.2).mono
        (fun q hq => hq.mono fun c hc => hc.about) fun _ _ => trivial) ?_ hrs hs
    intro s hs h hfollows hbefore xs hxs
    obtain ⟨r, hr⟩ := Option.isSome_iff_exists.1 (hthere s hs)
    rw [show n.tables = m.tables from htables, hr] at hbefore
    exact run_task (hfollows.uncancelled huncancelled) hbefore hxs

end Removal

end VirtualTopology
