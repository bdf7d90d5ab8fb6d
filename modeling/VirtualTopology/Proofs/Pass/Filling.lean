import VirtualTopology.Proofs.Idempotence
import VirtualTopology.Proofs.Pass.Goal

/-!
# Volumes and pools, wherever a run stops

What the work on the volume of an entry comes to on a calm host depends on what is stored of the volume and on nothing
else (`VolumeEntry.ended`), and where calls can fail it comes to that, or it fails and leaves the volume as it is
(`VolumeEntry.concludes_ended`). So each volume of a pool is what it was or what it is to be, wherever a run stops, and
both lead to the same end (`VolumeEntry.ended_of_kept`). With the goal of the pool itself this tells how a pool fares
(`Started.Fares`).
-/

namespace VirtualTopology

open Talk Work

/-! ### Volumes -/

/-- A host that has nothing but a pool that runs, in which there is at most one volume. -/
def Memory.holding (pool name : String) (s? : Option StoredVolume) : Memory where
  tables := { pools := [(pool, { document := "", active := true, volumes := Table.assign [] name s? })] }

namespace VolumeEntry

/-- What the work on the volume of an entry comes to if nothing disturbs it: how it ends, and what is stored of the
volume then. -/
def ended (e : VolumeEntry) (pool : String) (s? : Option StoredVolume) :
    Except Trouble Result × Option StoredVolume :=
  let run := (Memory.holding pool e.name s?).run (e.sync false pool s?.isSome).run
  (run.1, (run.2.tables.get? .pool pool).bind (·.volumes.get? e.name))

/-- Whether the work on a volume comes to an end and to a stored volume. If it fails on the way, the volume is as it
was. -/
structure Concludes (e : VolumeEntry) (pool : String) (s? : Option StoredVolume) (a : Except Trouble Result)
    (s' : Option StoredVolume) : Prop where
  comes : e.Comes pool s? a s'
  kept : Trouble.IsFailure a → s' = s?
  leaves : ∀ (struck : Prop) (polls : Table Int) (r : StoredResource), r.active = true →
    r.volumes.get? e.name = s? → Leaves struck polls .pool pool r (e.sync false pool s?.isSome) fun b r' =>
      b = a ∧ r' = { r with volumes := r.volumes.assign e.name s' } ∨ struck ∧ Trouble.IsFailure b ∧ r' = r

variable {e : VolumeEntry} {pool : String} {s? : Option StoredVolume}

/-- Work that leaves the volume alone. -/
theorem Concludes.same {a : Except Trouble Result} (hcomes : e.Comes pool s? a s?)
    (hpersists : ∀ (struck : Prop) (polls : Table Int) (r : StoredResource), r.active = true →
      r.volumes.get? e.name = s? → Leaves struck polls .pool pool r (e.sync false pool s?.isSome) fun b r' =>
        b = a ∧ r' = r ∨ struck ∧ Trouble.IsFailure b ∧ r' = r) : e.Concludes pool s? a s? := by
  refine ⟨hcomes, fun _ => rfl, fun struck polls r hactive hs => ?_⟩
  refine (hpersists struck polls r hactive hs).mono fun b r' h => h.imp_left fun ⟨hb, hr'⟩ => ⟨hb, ?_⟩
  rw [hr', ← hs, Table.assign_self]

/-- What becomes of a volume that is there and declared. -/
theorem exists_concludes_adjust {v : Volume} (present : e.present = true) (volume : e.volume = some v)
    (pool : String) (s : StoredVolume) : ∃ a s', e.Concludes pool (some s) a s' := by
  have hsync : e.sync false pool (some s).isSome = e.adjust false pool v := by
    rw [sync, present, volume]
    rfl
  -- the document is read first, and that can fail
  have hread : ∀ {struck : Prop} {polls : Table Int} {r r' : StoredResource} {a : Except Trouble Result},
      r.active = true → r.volumes.get? e.name = some s →
      Leaves struck polls .pool pool r (e.weigh false pool v s.document)
        (fun b x => b = a ∧ x = r' ∨ struck ∧ Trouble.IsFailure b ∧ x = r) →
      Leaves struck polls .pool pool r (e.sync false pool (some s).isSome)
        fun b x => b = a ∧ x = r' ∨ struck ∧ Trouble.IsFailure b ∧ x = r := by
    intro struck polls r r' a hactive hs hweigh
    rw [hsync, adjust_eq]
    exact Steps.bind (admits_readVolume hactive hs).steps (fun hstruck b hb => .inr ⟨hstruck, hb, rfl⟩) hweigh
  rcases weigh_cases e pool v s.document with ⟨x, hweigh⟩ |
    ⟨x, hdocument, hformat, ⟨hcapacity, hweigh⟩ | ⟨size, text, -, -, hweigh⟩⟩
  · refine ⟨.error x, some s, .same (.failed _ _ _) fun struck polls r hactive hs => hread hactive hs ?_⟩
    rw [hweigh]
    exact Leaves.throw (.inl ⟨rfl, rfl⟩)
  · refine ⟨_, some s, .same (.kept present volume hdocument hformat hcapacity) fun struck polls r hactive hs =>
      hread hactive hs ?_⟩
    rw [hweigh]
    exact Leaves.pure (.inl ⟨rfl, rfl⟩)
  · -- nothing is asked of the host behind the new size
    have hresize : ∀ {struck : Prop} {polls : Table Int} {r : StoredResource} {a : Except Trouble Result},
        r.active = true → r.volumes.get? e.name = some s →
        (∀ x : StoredResource, Leaves struck polls .pool pool x
          (do return e.done pool .updated [← Work.stating [size, v.capacity.toBytes] text])
          fun b y => b = a ∧ y = x) →
        Leaves struck polls .pool pool r (e.sync false pool (some s).isSome) fun b x =>
          b = a ∧ x = { r with volumes := r.volumes.assign e.name (some (s.resized v.capacity.toBytes)) } ∨
            struck ∧ Trouble.IsFailure b ∧ x = r := by
      intro struck polls r a hactive hs hstate
      refine hread hactive hs ?_
      rw [hweigh]
      refine Steps.bind (admits_resizeVolume hactive hs _).steps_change
        (fun hstruck b hb => .inr ⟨hstruck, hb, rfl⟩) ?_
      exact (hstate _).mono fun b x h => .inl h
    rcases stating_cases [size, v.capacity.toBytes] text with ⟨hstating, hwritable⟩ | hstating
    · refine ⟨_, _, .grown present volume hdocument hformat (hwritable _ (by simp)) [text],
        by rintro ⟨_, _, _, h⟩; exact absurd h (by simp), fun struck polls r hactive hs => hresize hactive hs fun x => ?_⟩
      rw [hstating]
      exact Leaves.bind (Q := fun b y => b = .ok text ∧ y = x) (Leaves.pure ⟨rfl, rfl⟩)
        (fun b y h => by rw [Except.ok.inj h.1, h.2]; exact Leaves.pure ⟨rfl, rfl⟩)
        fun _ _ h => absurd h.1 (by simp)
    · refine ⟨.error (.unwritable .number), _, .failed _ _ _, by rintro ⟨_, _, _, h⟩; exact absurd h (by simp),
        fun struck polls r hactive hs => hresize hactive hs fun x => ?_⟩
      rw [hstating]
      exact Leaves.bind (Q := fun b y => b = .error (.unwritable .number) ∧ y = x) (Leaves.throw ⟨rfl, rfl⟩)
        (fun _ _ h => absurd h.1 (by simp)) fun _ _ h => ⟨by rw [Except.error.inj h.1], h.2⟩

/-- What becomes of the volume of an entry. -/
theorem exists_concludes (he : e.IsSound) (pool : String) (s? : Option StoredVolume) :
    ∃ a s', e.Concludes pool s? a s' := by
  -- a call that is struck changes nothing, so the volume is as it was, or as the whole work leaves it
  cases hp : e.present with
  | false =>
    cases s? with
    | none =>
      refine ⟨_, none, .same (.absent hp) fun struck polls r _ _ => ?_⟩
      rw [sync, hp]
      exact Leaves.pure (.inl ⟨rfl, rfl⟩)
    | some s =>
      refine ⟨_, _, .deleted hp s, by rintro ⟨_, _, _, h⟩; exact absurd h (by simp), fun struck polls r hactive hs => ?_⟩
      rw [sync, hp]
      refine Steps.bind (admits_deleteVolume hactive hs).steps_change (fun hstruck b hb => .inr ⟨hstruck, hb, rfl⟩) ?_
      exact Leaves.pure (.inl ⟨rfl, rfl⟩)
  | true =>
    obtain ⟨v, hv, hname, hplain⟩ := he hp
    cases s? with
    | some s => exact exists_concludes_adjust hp hv pool s
    | none =>
      have hsync : e.sync false pool (none : Option StoredVolume).isSome = (do
          let text ← Work.writing v.written
          Work.change false .create (.createVolume pool text)
          return e.done pool .created) := by
        rw [sync, hp, hv]
        rfl
      have hwritten := Volume.written_eq hplain
      cases hwritable : Text.isWritable v.capacity.toBytes with
      | false =>
        rw [hwritable] at hwritten
        refine ⟨.error (.unwritable .number), none, .same (.failed _ _ _) fun struck polls r _ _ => ?_⟩
        rw [hsync, hwritten]
        exact Leaves.bind (Q := fun b y => b = .error (.unwritable .number) ∧ y = r) (Leaves.throw ⟨rfl, rfl⟩)
          (fun _ _ h => absurd h.1 (by simp)) fun _ _ h => .inl ⟨by rw [Except.error.inj h.1], h.2⟩
      | true =>
        rw [hwritable] at hwritten
        have hread := (Volume.legible hplain).read?_print
        have hnamed := (Volume.nameInDocument_written hplain).trans hname
        have hstored : StoredVolume.ofDocument (v.document.readBack 0)
            = .sized (some v.capacity.toBytes) (.known v.format) := by
          rw [StoredVolume.ofDocument, Volume.volumeCapacity?_document hwritable,
            Volume.volumeFormat?_document hplain]
          rfl
        refine ⟨_, _, .created hp hv hwritable, by rintro ⟨_, _, _, h⟩; exact absurd h (by simp),
          fun struck polls r hactive hs => ?_⟩
        rw [hsync, hwritten]
        refine Steps.bind (Steps.pure _) (fun hstruck b hb => .inr ⟨hstruck, hb, rfl⟩) ?_
        refine Steps.bind (admits_createVolume hactive hread hnamed).steps_change
          (fun hstruck b hb => .inr ⟨hstruck, hb, rfl⟩) ?_
        refine Leaves.pure (.inl ⟨rfl, ?_⟩)
        rw [hstored]
        rfl

/-- **What the work on a volume comes to where calls can fail**: what it comes to if nothing disturbs it, or it fails
and the volume is as it was. -/
theorem concludes_ended (he : e.IsSound) (pool : String) (s? : Option StoredVolume) :
    e.Concludes pool s? (e.ended pool s?).1 (e.ended pool s?).2 := by
  obtain ⟨a, s', h⟩ := exists_concludes he pool s?
  have hended : e.ended pool s? = (a, s') := by
    have hr : (Memory.holding pool e.name s?).tables.get? .pool pool =
        some { document := "", active := true, volumes := Table.assign [] e.name s? } := by
      simp [Memory.holding, Tables.get?, Tables.table, Table.get?_cons]
    have hvolume : (Table.assign [] e.name s?).get? e.name = s? := by rw [Table.get?_assign, if_pos rfl]
    obtain ⟨r', htables, ⟨ha, rfl⟩ | ⟨hstruck, -⟩⟩ :=
      (h.leaves False (Memory.holding pool e.name s?).polls _ rfl hvolume _ hr).run ⟨rfl, rfl⟩
        fun _ => ⟨rfl, rfl, rfl⟩
    · rw [ended, htables, Tables.get?_put_self]
      exact Prod.ext ha (by rw [Option.bind_some, Table.get?_assign, if_pos rfl])
    · exact hstruck.elim
  rw [hended]
  exact h

/-- A volume in line stays as it is. -/
theorem ended_of_inLine (h : e.InLine s?) : e.ended pool s? = (.ok (e.done pool .unchanged), s?) := by
  have hr : (Memory.holding pool e.name s?).tables.get? .pool pool =
      some { document := "", active := true, volumes := Table.assign [] e.name s? } := by
    simp [Memory.holding, Tables.get?, Tables.table, Table.get?_cons]
  have hvolume : (Table.assign [] e.name s?).get? e.name = s? := by rw [Table.get?_assign, if_pos rfl]
  have hpeeks := peeks_sync hr rfl (hvolume.symm ▸ h)
  rw [hvolume] at hpeeks
  obtain ⟨ha, hlooked⟩ := hpeeks.run (Memory.holding pool e.name s?) ⟨rfl, rfl, rfl⟩ rfl
  rw [ended, hlooked.tables_eq, hr]
  exact Prod.ext ha hvolume

/-- Whether nothing has to be written about a volume that cannot be written. -/
def IsTold (e : VolumeEntry) (pool : String) (s? : Option StoredVolume) : Prop :=
  ∀ why, (e.ended pool s?).1 ≠ .error (.unwritable why)

/-- Whether a volume cannot be brought in line: that would take a conversion or a smaller size. -/
def IsRefused (e : VolumeEntry) (pool : String) (s? : Option StoredVolume) : Prop :=
  Trouble.IsFailure (e.ended pool s?).1

/-- **A volume that is as it was or as it is to be leads to the same end.** -/
theorem ended_of_kept (he : e.IsSound) (htold : e.IsTold pool s?) {s' : Option StoredVolume}
    (h : s' = s? ∨ s' = (e.ended pool s?).2) :
    (e.ended pool s').2 = (e.ended pool s?).2 ∧ (e.IsRefused pool s' ↔ e.IsRefused pool s?) ∧ e.IsTold pool s' := by
  rcases h with rfl | rfl
  · exact ⟨rfl, Iff.rfl, htold⟩
  · have hconcludes := concludes_ended he pool s?
    unfold IsRefused IsTold
    match ha : (e.ended pool s?).1 with
    | .ok res =>
      have hcomes := hconcludes.comes
      rw [ha] at hcomes
      rw [ended_of_inLine (hcomes.inLine he)]
      refine ⟨rfl, ?_, fun why h => absurd h (by simp)⟩
      constructor <;> exact fun ⟨_, _, _, h⟩ => absurd h (by simp)
    | .error (.failed op reason fk) =>
      have hkept := hconcludes.kept ⟨op, reason, fk, ha⟩
      rw [hkept, ha]
      exact ⟨hkept, Iff.rfl, fun why h => absurd h (by simp)⟩
    | .error (.unwritable why) => exact absurd ha (htold why)

end VolumeEntry

/-! ### The volumes of a pool -/

namespace Pool

variable {p : Pool} {struck : Prop} {polls : Table Int} {e : VolumeEntry} {es : List VolumeEntry}
  {r r₁ r' : StoredResource}

/-- How some volumes of a pool fare. Nothing else in the pool is changed. Each volume is as it was, or as it is to be;
if calls cannot be struck, it is as it is to be. There are results unless something cannot be written, and they tell
which volumes are refused. -/
structure VolumesFare (p : Pool) (struck : Prop) (es : List VolumeEntry) (r r' : StoredResource) (rs : Recorded) :
    Prop where
  rest : r.AgreeBut (es.map (·.name)) r'
  kept : ∀ e ∈ es, r'.volumes.get? e.name = r.volumes.get? e.name ∨
    r'.volumes.get? e.name = (e.ended p.name (r.volumes.get? e.name)).2
  told : (∀ e ∈ es, e.IsTold p.name (r.volumes.get? e.name)) → ∃ xs, rs = .ok xs
  refused : ∀ xs, rs = .ok xs → ∀ e ∈ es, e.IsRefused p.name (r.volumes.get? e.name) →
    Domain.hasFailed xs .volume (e.label p.name) = true
  calm : ¬ struck → ∀ xs, rs = .ok xs →
    (∀ e ∈ es, r'.volumes.get? e.name = (e.ended p.name (r.volumes.get? e.name)).2 ∧
      e.IsTold p.name (r.volumes.get? e.name)) ∧
    ∀ x ∈ xs, x.outcome = .failed → ∃ e ∈ es, e.IsRefused p.name (r.volumes.get? e.name) ∧
      x.kind = .volume ∧ x.name = e.label p.name

/-- What becomes of one volume: it is as it is to be, or the work on it is struck and it is as it was. -/
def VolumeFares (p : Pool) (struck : Prop) (e : VolumeEntry) (r r' : StoredResource) (b : Except Trouble Result) :
    Prop :=
  b = (e.ended p.name (r.volumes.get? e.name)).1 ∧
      r' = { r with volumes := r.volumes.assign e.name (e.ended p.name (r.volumes.get? e.name)).2 } ∨
    struck ∧ Trouble.IsFailure b ∧ r' = r

theorem VolumeFares.rest {b : Except Trouble Result} (h : p.VolumeFares struck e r r' b) : r.AgreeBut [e.name] r' := by
  rcases h with ⟨-, rfl⟩ | ⟨-, -, rfl⟩
  · cases (e.ended p.name (r.volumes.get? e.name)).2 with
    | none => exact .erase e.name r
    | some v => exact .put e.name r v
  · exact .refl _ _

theorem VolumeFares.kept {b : Except Trouble Result} (h : p.VolumeFares struck e r r' b) :
    r'.volumes.get? e.name = r.volumes.get? e.name ∨
      r'.volumes.get? e.name = (e.ended p.name (r.volumes.get? e.name)).2 := by
  rcases h with ⟨-, rfl⟩ | ⟨-, -, rfl⟩
  · exact .inr (by simp [Table.get?_assign])
  · exact .inl rfl

/-- Volumes that are not reached are as they were. -/
theorem VolumesFare.stopped (h : r.AgreeBut (es.map (·.name)) r')
    (hkept : ∀ e ∈ es, r'.volumes.get? e.name = r.volumes.get? e.name ∨
      r'.volumes.get? e.name = (e.ended p.name (r.volumes.get? e.name)).2)
    (htold : ∃ e ∈ es, ¬ e.IsTold p.name (r.volumes.get? e.name)) (why : Unwritable) :
    p.VolumesFare struck es r r' (.error why) := by
  obtain ⟨e, he, hnot⟩ := htold
  exact ⟨h, hkept, fun htold => absurd (htold e he) hnot, fun xs hxs => absurd hxs (by simp),
    fun _ xs hxs => absurd hxs (by simp)⟩

/-- What the result for a volume tells. -/
theorem VolumeFares.results (he : e.IsSound) {b : Except Trouble Result} {ys : List Result}
    (h : p.VolumeFares struck e r r' b) (hys : (Ending.of .volume (e.label p.name) b).recorded = .ok ys) :
    (e.IsRefused p.name (r.volumes.get? e.name) → Domain.hasFailed ys .volume (e.label p.name) = true) ∧
      (¬ struck → e.IsTold p.name (r.volumes.get? e.name) ∧ ∀ x ∈ ys, x.outcome = .failed →
        e.IsRefused p.name (r.volumes.get? e.name) ∧ x.kind = .volume ∧ x.name = e.label p.name) := by
  have hcomes := (VolumeEntry.concludes_ended he p.name (r.volumes.get? e.name)).comes
  unfold VolumeEntry.IsRefused VolumeEntry.IsTold
  match b with
  | .ok res =>
    obtain rfl : [res] = ys := Except.ok.inj hys
    rcases h with ⟨hb, -⟩ | ⟨-, ⟨op, reason, fk, hb⟩, -⟩
    · rw [← hb] at hcomes ⊢
      refine ⟨fun ⟨_, _, _, h⟩ => absurd h (by simp), fun _ => ⟨fun why h => absurd h (by simp), ?_⟩⟩
      intro x hx hfailed
      obtain rfl := List.mem_singleton.1 hx
      exact absurd hfailed hcomes.result.2.2
    · exact absurd hb (by simp)
  | .error (.failed op reason fk) =>
    obtain rfl : [Result.stuck .volume (e.label p.name) op reason fk] = ys := Except.ok.inj hys
    refine ⟨fun _ => by simp [Domain.hasFailed, Result.stuck, Result.failure], fun hstruck => ?_⟩
    rcases h with ⟨hb, -⟩ | ⟨hstruck', -⟩
    · rw [← hb]
      refine ⟨fun why h => absurd h (by simp), fun x hx _ => ⟨⟨op, reason, fk, rfl⟩, ?_⟩⟩
      obtain rfl := List.mem_singleton.1 hx
      exact ⟨rfl, rfl⟩
    · exact absurd hstruck' hstruck
  | .error (.unwritable why) => exact absurd hys (by simp [Ending.of, Ending.recorded])

/-- If there is no result for a volume, something about it cannot be written. -/
theorem VolumeFares.not_told {b : Except Trouble Result} {why : Unwritable} (h : p.VolumeFares struck e r r' b)
    (hwhy : (Ending.of .volume (e.label p.name) b).recorded = .error why) :
    ¬ e.IsTold p.name (r.volumes.get? e.name) := by
  intro htold
  match b with
  | .ok res => exact absurd hwhy (by simp [Ending.of, Ending.recorded])
  | .error (.failed op reason fk) => exact absurd hwhy (by simp [Ending.of, Ending.recorded])
  | .error (.unwritable why') =>
    rcases h with ⟨hb, -⟩ | ⟨-, ⟨op, reason, fk, hb⟩, -⟩
    · exact htold why' hb.symm
    · exact absurd hb (by simp)

theorem hasFailed_append (xs ys : List Result) (kind : ResourceKind) (name : String) :
    Domain.hasFailed (xs ++ ys) kind name = (Domain.hasFailed xs kind name || Domain.hasFailed ys kind name) :=
  List.any_append

theorem hasFailed_cons (x : Result) {xs : List Result} {kind : ResourceKind} {name : String}
    (h : Domain.hasFailed xs kind name = true) : Domain.hasFailed (x :: xs) kind name = true := by
  rw [Domain.hasFailed, List.any_cons]
  exact Bool.or_eq_true_iff.2 (.inr h)

/-- One volume and those behind it. -/
theorem VolumesFare.cons (he : e.IsSound) {b : Except Trouble Result} {ys : List Result} {rs : Recorded}
    (hname : e.name ∉ es.map (·.name)) (hhead : p.VolumeFares struck e r r₁ b)
    (hys : (Ending.of .volume (e.label p.name) b).recorded = .ok ys)
    (htail : p.VolumesFare struck es r₁ r' rs) : p.VolumesFare struck (e :: es) r r' (rs.map (ys ++ ·)) := by
  have hrest := hhead.rest
  obtain ⟨hrefused, hcalm⟩ := hhead.results he hys
  have hothers : ∀ e' ∈ es, r₁.volumes.get? e'.name = r.volumes.get? e'.name := fun e' he' =>
    hrest.others _ fun hmem => hname (List.mem_map.2 ⟨e', he', List.mem_singleton.1 hmem⟩)
  have hself : r'.volumes.get? e.name = r₁.volumes.get? e.name := htail.rest.others _ hname
  -- what the volumes behind the first one are does not depend on it
  have hkept := htail.kept
  have htold := htail.told
  have hrefused' := htail.refused
  have hcalm' := htail.calm
  simp +contextual only [hothers] at hkept htold hrefused' hcalm'
  refine ⟨(hrest.mono (by simp)).trans (htail.rest.mono (by simp +contextual)), ?_, ?_, ?_, ?_⟩
  · rw [List.forall_mem_cons, hself]
    exact ⟨hhead.kept, hkept⟩
  · intro hall
    obtain ⟨xs, rfl⟩ := htold fun e' he' => hall e' (by simp [he'])
    exact ⟨ys ++ xs, rfl⟩
  · intro zs hzs
    obtain ⟨xs, rfl, rfl⟩ : ∃ xs, rs = .ok xs ∧ zs = ys ++ xs := by
      cases rs with
      | error why => exact absurd hzs (by simp [Except.map])
      | ok xs => exact ⟨xs, rfl, (Except.ok.inj hzs).symm⟩
    simp only [hasFailed_append, Bool.or_eq_true]
    rw [List.forall_mem_cons]
    exact ⟨fun h => .inl (hrefused h), fun e' he' h => .inr (hrefused' xs rfl e' he' h)⟩
  · intro hstruck zs hzs
    obtain ⟨xs, rfl, rfl⟩ : ∃ xs, rs = .ok xs ∧ zs = ys ++ xs := by
      cases rs with
      | error why => exact absurd hzs (by simp [Except.map])
      | ok xs => exact ⟨xs, rfl, (Except.ok.inj hzs).symm⟩
    obtain ⟨htold, hys⟩ := hcalm hstruck
    obtain ⟨hended, hxs⟩ := hcalm' hstruck xs rfl
    refine ⟨List.forall_mem_cons.2 ⟨⟨?_, htold⟩, hended⟩, fun x hx hfailed => ?_⟩
    · rw [hself]
      rcases hhead with ⟨-, rfl⟩ | ⟨hstruck', -⟩
      · simp [Table.get?_assign]
      · exact absurd hstruck' hstruck
    · rcases List.mem_append.1 hx with hx | hx
      · exact ⟨e, by simp, hys x hx hfailed⟩
      · obtain ⟨e', he', htells⟩ := hxs x hx hfailed
        rw [hothers e' he'] at htells
        exact ⟨e', by simp [he'], htells⟩

/-- **How volumes fare of which work is done one after another.** -/
theorem endures_syncVolumes (hsound : ∀ e ∈ es, e.IsSound) (hnames : (es.map (·.name)).Nodup) {there : List String}
    {t : Tables} (hr : t.get? .pool p.name = some r) (hactive : r.active = true)
    (hthere : ∀ e ∈ es, there.contains e.name = (r.volumes.get? e.name).isSome) :
    Endures struck polls (fun rs u => ∃ r', u.get? .pool p.name = some r' ∧ p.VolumesFare struck es r r' rs)
      (p.syncVolumes false there es) t := by
  induction es generalizing t r with
  | nil =>
    refine .pure ⟨r, hr, .refl _ r, by simp, fun _ => ⟨[], rfl⟩, by simp, fun _ xs hxs => ⟨by simp, ?_⟩⟩
    rw [← Except.ok.inj hxs]
    simp
  | cons e es ih =>
    rw [List.map_cons, List.nodup_cons] at hnames
    have he := hsound e (by simp)
    have hhead : Endures struck polls (fun b u => ∃ r₁, u = t.put .pool p.name r₁ ∧ p.VolumeFares struck e r r₁ b)
        (e.sync false p.name (r.volumes.get? e.name).isSome).run t :=
      (VolumeEntry.concludes_ended he p.name _).leaves struck polls r hactive rfl t hr
    rw [syncVolumes, hthere e (by simp)]
    refine Endures.bind (Q := fun ending u => ∃ b, ending = .of .volume (e.label p.name) b ∧
      ∃ r₁, u = t.put .pool p.name r₁ ∧ p.VolumeFares struck e r r₁ b)
      (Endures.supervise (hhead.mono fun b u h => ⟨b, rfl, h⟩)) ?_
    rintro _ _ ⟨b, rfl, r₁, rfl, hfares⟩
    have hr₁ : (t.put .pool p.name r₁).get? .pool p.name = some r₁ := Tables.get?_put_self
    have hrest := hfares.rest
    -- the work on one volume leaves the others as they were, for names are distinct
    have hothers : ∀ e' ∈ es, r₁.volumes.get? e'.name = r.volumes.get? e'.name := fun e' he' =>
      hrest.others _ fun hmem => hnames.1 (List.mem_map.2 ⟨e', he', List.mem_singleton.1 hmem⟩)
    cases hys : (Ending.of .volume (e.label p.name) b).recorded with
    | error why =>
      refine .pure ⟨r₁, hr₁, .stopped (hrest.mono (by simp)) ?_ ?_ why⟩
      · exact List.forall_mem_cons.2 ⟨hfares.kept, fun e' he' => .inl (hothers e' he')⟩
      · exact ⟨e, by simp, hfares.not_told hys⟩
    | ok ys =>
      refine Endures.bind (ih (fun e' he' => hsound e' (by simp [he'])) hnames.2 hr₁ (hrest.active.trans hactive)
        fun e' he' => ?_) ?_
      · rw [hothers e' he']
        exact hthere e' (by simp [he'])
      · rintro rs u ⟨r', hr', htail⟩
        exact .pure ⟨r', hr', htail.cons he hnames.1 hfares hys⟩

theorem hasFailed_volumesFailed (operation : Operation) (reason : String) (fk : FailureKind) (he : e ∈ p.volumes) :
    Domain.hasFailed (p.volumesFailed operation reason fk) .volume (e.label p.name) = true := by
  rw [Domain.hasFailed, List.any_eq_true]
  exact ⟨_, List.mem_map.2 ⟨e, he, rfl⟩, by simp [Result.stuck, Result.failure]⟩

/-- How the volumes of a pool that runs as declared fare. -/
theorem endures_syncContents (hp : p.IsSound) {t : Tables} (hr : t.get? .pool p.name = some r)
    (hactive : r.active = p.active) :
    Endures struck polls (fun rs u => ∃ r', u.get? .pool p.name = some r' ∧ p.VolumesFare struck p.volumes r r' rs)
      (p.syncContents false p.active) t := by
  unfold syncContents
  by_cases hempty : p.volumes = []
  · simp only [hempty, List.isEmpty_nil, if_true]
    refine .pure ⟨r, hr, .refl _ r, by simp, fun _ => ⟨[], rfl⟩, by simp, fun _ xs hxs => ⟨by simp, ?_⟩⟩
    rw [← Except.ok.inj hxs]
    simp
  · have hrunning : p.active = true := hp.active hempty
    have hlist : t.serve polls (.listVolumes p.name)
        = .ok (r.volumes.names.mergeSort fun a b => decide (a ≤ b), t) :=
      (admits_listVolumes (hactive.trans hrunning)).serve_self hr
    simp only [List.isEmpty_iff, hempty, if_false, hrunning, if_true]
    refine Endures.bind (Q := fun reply u => u = t ∧
      (reply = .ok (r.volumes.names.mergeSort fun a b => decide (a ≤ b)) ∨ struck ∧ ∃ e, reply = .error e))
      (Endures.call (fun a u hserve => ?_) fun e hfails => ?_) ?_
    · rw [hlist] at hserve
      obtain ⟨rfl, rfl⟩ := Prod.mk.inj (Except.ok.inj hserve)
      exact ⟨rfl, .inl rfl⟩
    · -- the pool is active, so its volumes are listed unless that is struck
      rcases hfails with hstruck | hrefused
      · exact ⟨rfl, .inr ⟨hstruck, e, rfl⟩⟩
      · rw [hlist] at hrefused
        exact absurd hrefused (by simp)
    · rintro reply u ⟨rfl, rfl | ⟨hstruck, e, rfl⟩⟩
      · refine endures_syncVolumes hp.sound hp.names hr (hactive.trans hrunning) fun e _ => ?_
        rw [Bool.eq_iff_iff, List.contains_iff_mem, List.mem_mergeSort]
        exact Table.mem_names_iff
      · refine .pure ⟨r, hr, .refl _ r, fun _ _ => .inl rfl, fun _ => ⟨_, rfl⟩, fun xs hxs e' he' _ => ?_,
          fun hcalm => absurd hstruck hcalm⟩
        rw [← Except.ok.inj hxs]
        exact hasFailed_volumesFailed _ _ _ he'

end Pool

/-! ### Networks and pools -/

/-- What is stored of the volume of an entry, given what is stored of its pool. -/
def VolumeEntry.storedIn (e : VolumeEntry) (old : Option StoredResource) : Option StoredVolume :=
  old.bind (·.volumes.get? e.name)

namespace StoredResource.AgreeBut

variable {vs : List String} {r r' : StoredResource}

theorem standing (h : r.AgreeBut vs r') : r.standing.AgreeBut vs r'.standing :=
  ⟨by rw [h.rest]; rfl, h.others⟩

theorem symm (h : r.AgreeBut vs r') : r'.AgreeBut vs r :=
  ⟨by rw [h.rest], fun other hne => (h.others other hne).symm⟩

/-- Resources that agree in the volumes, too, agree in all. -/
theorem resembles (h : r.standing.AgreeBut vs r'.standing)
    (hvolumes : ∀ v ∈ vs, r'.volumes.get? v = r.volumes.get? v) : r.Resembles r' := by
  refine ⟨h.rest, fun v _ => ?_⟩
  by_cases hv : v ∈ vs
  · exact hvolumes v hv
  · exact h.others v hv

end StoredResource.AgreeBut

namespace Started

variable {s : Started} {text : String} {vs : List VolumeEntry} {struck : Prop} {old new : Option StoredResource}
  {rs : Recorded}

/-- How a network, or a pool with its volumes, fares. Wherever the work stops, it leads to where it led before, and
each volume is as it was or as it is to be. If calls cannot be struck, the resource is in line. There are results
unless something cannot be written, and they tell which volumes are refused. -/
structure Fares (s : Started) (text : String) (vs : List VolumeEntry) (struck : Prop)
    (old new : Option StoredResource) (rs : Recorded) : Prop where
  goal : (s.goal text old).AgreeBut (vs.map (·.name)) (s.goal text new)
  kept : ∀ e ∈ vs, e.storedIn new = e.storedIn old ∨ e.storedIn new = (e.ended s.name (e.storedIn old)).2
  told : (∀ e ∈ vs, e.IsTold s.name (e.storedIn old)) → ∃ xs, rs = .ok xs
  refused : ∀ xs, rs = .ok xs → ∀ e ∈ vs, e.IsRefused s.name (e.storedIn old) →
    Domain.hasFailed xs .volume (e.label s.name) = true
  calm : ¬ struck → ∀ xs, rs = .ok xs →
    (∃ r, new = some r ∧ (s.goal text old).AgreeBut (vs.map (·.name)) r.standing) ∧
    (∀ e ∈ vs, e.storedIn new = (e.ended s.name (e.storedIn old)).2 ∧ e.IsTold s.name (e.storedIn old)) ∧
    ∀ x ∈ xs, x.outcome = .failed → ∃ e ∈ vs, e.IsRefused s.name (e.storedIn old) ∧
      x.kind = .volume ∧ x.name = e.label s.name

theorem get?_volumes_goal (s : Started) (text : String) (e : VolumeEntry) (old : Option StoredResource) :
    (s.goal text old).volumes.get? e.name = e.storedIn old :=
  get?_volumes_settled s text old e.name

/-- A resource that has been struck leads to where it led before, and so do its volumes. -/
theorem Fares.of_struck (hstruck : struck) (hgoal : s.goal text new = s.goal text old) {xs : List Result}
    (hxs : ∀ e ∈ vs, Domain.hasFailed xs .volume (e.label s.name) = true) :
    s.Fares text vs struck old new (.ok xs) := by
  refine ⟨hgoal ▸ .refl _ _, fun e _ => .inl ?_, fun _ => ⟨xs, rfl⟩, fun ys hys e he _ => ?_,
    fun hcalm => absurd hstruck hcalm⟩
  · rw [← s.get?_volumes_goal text, hgoal, s.get?_volumes_goal text]
  · rw [← Except.ok.inj hys]
    exact hxs e he

/-- A resource in line, with what became of its volumes. -/
theorem Fares.of_volumes {p : Pool} {x : Result} {r : StoredResource}
    (hgoal : p.started.goal text (some (p.started.settled text old)) = p.started.goal text old)
    (hx : x.outcome ≠ .failed) (h : p.VolumesFare struck p.volumes (p.started.settled text old) r rs) :
    p.started.Fares text p.volumes struck old (some r) (rs.map (x :: ·)) := by
  have hstored : ∀ e : VolumeEntry, (p.started.settled text old).volumes.get? e.name = e.storedIn old := fun e =>
    get?_volumes_settled p.started text old e.name
  obtain ⟨hrest, hkept, htold, hrefused, hcalm⟩ := h
  simp only [hstored] at hkept htold hrefused hcalm
  have hcons : ∀ ys, rs.map (x :: ·) = .ok ys → ∃ xs, rs = .ok xs ∧ ys = x :: xs := by
    intro ys hys
    cases rs with
    | error why => exact absurd hys (by simp [Except.map])
    | ok xs => exact ⟨xs, rfl, (Except.ok.inj hys).symm⟩
  refine ⟨?_, hkept, fun hall => ?_, fun ys hys e he hre => ?_, fun hstruck ys hys => ?_⟩
  · -- the volumes do not matter for where the rest of the pool leads
    have hnew : p.started.goal text (some r) = { p.started.goal text old with volumes := r.volumes } :=
      calc p.started.goal text (some r)
        _ = p.started.goal text (some { p.started.settled text old with volumes := r.volumes }) :=
          congrArg (fun x => p.started.goal text (some x)) hrest.rest
        _ = { p.started.goal text (some (p.started.settled text old)) with volumes := r.volumes } := goal_volumes _ _
        _ = { p.started.goal text old with volumes := r.volumes } := by rw [hgoal]
    rw [hnew]
    exact ⟨rfl, hrest.others⟩
  · obtain ⟨xs, rfl⟩ := htold hall
    exact ⟨_, rfl⟩
  · obtain ⟨xs, rfl, rfl⟩ := hcons ys hys
    exact Pool.hasFailed_cons x (hrefused xs rfl e he hre)
  · obtain ⟨xs, rfl, rfl⟩ := hcons ys hys
    obtain ⟨hended, hxs⟩ := hcalm hstruck xs rfl
    refine ⟨⟨r, rfl, hrest.standing⟩, hended, fun y hy hfailed => ?_⟩
    rcases List.mem_cons.1 hy with rfl | hy
    · exact absurd hfailed hx
    · exact hxs y hy hfailed

/-- **A resource that was struck comes to what it would have come to**, as soon as it is not struck. -/
theorem Fares.resembles {clean again : Option StoredResource} {xs ys : List Result} (hsound : ∀ e ∈ vs, e.IsSound)
    (hclean : s.Fares text vs False old clean (.ok xs)) (hstruck : s.Fares text vs struck old new rs)
    (hagain : s.Fares text vs False new again (.ok ys)) :
    Option.Rel StoredResource.Resembles clean again := by
  obtain ⟨⟨r, rfl, hr⟩, hvolumes, -⟩ := hclean.calm id xs rfl
  obtain ⟨⟨r', rfl, hr'⟩, hvolumes', -⟩ := hagain.calm id ys rfl
  refine .some ((hr.symm.trans (hstruck.goal.trans hr')).resembles fun name hname => ?_)
  obtain ⟨e, he, rfl⟩ := List.mem_map.1 hname
  obtain ⟨hclean, htold⟩ := hvolumes e he
  calc r'.volumes.get? e.name
    _ = (e.ended s.name (e.storedIn new)).2 := (hvolumes' e he).1
    _ = (e.ended s.name (e.storedIn old)).2 := (e.ended_of_kept (hsound e he) htold (hstruck.kept e he)).1
    _ = r.volumes.get? e.name := hclean.symm

theorem outcome_reported (s : Started) (text : String) (old : Option StoredResource) :
    (s.reported text old).outcome ≠ .failed := by
  have hcases := (s.reported_cases text old).2.2
  intro hfailed
  rw [hfailed] at hcases
  exact absurd hcases (by simp)

end Started

variable {struck : Prop} {polls : Table Int}

/-- **How a network fares.** -/
theorem Network.endures_task {n : Network} (h : Text.ArePlain n.texts) (t : Tables) :
    Endures struck polls (fun rs u =>
        n.started.Fares n.document.print [] struck (t.get? .network n.name) (u.get? .network n.name) rs)
      (n.task false (t.get? .network n.name).isSome) t := by
  have hself := (Network.legible h).documentsMatch_print
  have hsync : Endures struck polls (fun a u => n.started.Persists n.document.print struck (t.get? .network n.name) a
      (u.get? .network n.name)) (n.started.sync false (t.get? .network n.name).isSome).run t :=
    Started.endures_sync (by simp [started]) (started_text h) (nameInDocument_written h) hself t
  have hwork : Endures struck polls (fun a u => (∃ b, a = b.map (·.1) ∧
      n.started.Persists n.document.print struck (t.get? .network n.name) b (u.get? .network n.name)))
      ((·.1) <$> n.started.sync false (t.get? .network n.name).isSome : Work Result).run t := by
    rw [map_eq_pure_bind]
    exact hsync.andThen (fun a u h => .pure ⟨.ok a, rfl, h⟩) fun e u h => ⟨.error e, rfl, h⟩
  unfold task
  refine Endures.bind (Endures.supervise (hwork.mono fun a u h => ?_)) fun ending u h => .pure h
  obtain ⟨b, rfl, hgoal, ⟨rfl, hnew⟩ | ⟨hstruck, op, reason, fk, rfl⟩⟩ := h
  · refine ⟨hgoal ▸ .refl _ _, by simp, fun _ => ⟨_, rfl⟩, by simp, fun _ xs hxs => ⟨⟨_, hnew, .refl _ _⟩, by simp, ?_⟩⟩
    intro x hx hfailed
    rw [← Except.ok.inj hxs] at hx
    obtain rfl := List.mem_singleton.1 hx
    exact absurd hfailed (n.started.outcome_reported _ _)
  · exact .of_struck hstruck hgoal (by simp)

/-- **How a pool and its volumes fare.** -/
theorem Pool.endures_task {p : Pool} (hp : p.IsSound) (t : Tables) :
    Endures struck polls (fun rs u =>
        p.started.Fares p.document.print p.volumes struck (t.get? .pool p.name) (u.get? .pool p.name) rs)
      (p.task false (t.get? .pool p.name).isSome) t := by
  have hself := (Pool.legible hp.plain).documentsMatch_print
  have hsync : Endures struck polls (fun a u => p.started.Persists p.document.print struck (t.get? .pool p.name) a
      (u.get? .pool p.name)) (p.started.sync false (t.get? .pool p.name).isSome).run t :=
    Started.endures_sync (by simp [started]) (started_text hp) (nameInDocument_written hp.plain) hself t
  unfold task
  refine Endures.bind (Q := fun ending u => ∃ a, ending = .of .pool p.name a ∧
    p.started.Persists p.document.print struck (t.get? .pool p.name) a (u.get? .pool p.name))
    (Endures.supervise (hsync.mono fun a u h => ⟨a, rfl, h⟩)) ?_
  rintro _ u ⟨a, rfl, hgoal, ⟨rfl, hnew⟩ | ⟨hstruck, op, reason, fk, rfl⟩⟩
  · rw [hnew] at hgoal
    refine Endures.bind (endures_syncContents hp hnew (Started.active_settled _ _ _)) ?_
    rintro rs v ⟨r, hr, hvolumes⟩
    refine .pure ?_
    rw [hr]
    exact .of_volumes hgoal (p.started.outcome_reported _ _) hvolumes
  · exact .pure (.of_struck hstruck hgoal fun e he => hasFailed_cons _ (hasFailed_volumesFailed _ _ _ he))

end VirtualTopology
