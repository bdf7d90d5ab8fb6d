import VirtualTopology.Proofs.Pass.Agreement
import VirtualTopology.Proofs.Pass.Apart
import VirtualTopology.Proofs.Pass.Course
import VirtualTopology.Proofs.Topology.Rearrangement

/-!
# The tasks of a rearranged desired state

The tasks for the resources of a kind are apart (`Talk.Apart.of_isAbout`), and so are those for the volumes of a
pool (`Pool.apart_volumes`). So a pool with its entries for volumes in another order fares as before
(`Pool.matches_task`), and so do the resources of a kind (`Stock.shuffle_tasks`): on twin hosts they come to the
same results in another order.

The hosts are twins at all places but entries as a whole (`Place.IsPart`): volumes that are created in another order
stand in their pool in another order.
-/

namespace VirtualTopology

open Dialogue Talk

variable {waits : String → Prop}

/-! ### Places -/

namespace Place

/-- Whether a place is no entry as a whole. -/
def IsPart (x : Place) : Prop := ¬ x.IsEntry

/-- A volume, and its pool as far as it is not its volumes. -/
def OfVolume (pool volume : String) (x : Place) : Prop := x = .resource .pool pool ∨ x = .volume pool volume

theorem isPart_of {k : DefinedKind} {name : String} {x : Place} (h : Of k name x) : x.IsPart := by
  rintro ⟨l, n, rfl⟩
  exact h

theorem OfVolume.of {pool volume : String} {x : Place} (h : OfVolume pool volume x) : Of .pool pool x := by
  rcases h with rfl | rfl
  · exact ⟨rfl, rfl⟩
  · exact ⟨rfl, rfl⟩

end Place

namespace Call

variable {pool volume other : String} {c : Call}

/-- No call depends on an entry as a whole. -/
theorem within_isPart (c : Call) : c.Within Place.IsPart := by
  rintro x hx ⟨k, name, rfl⟩
  cases c with
  | list _ => exact absurd hx (by simp [Reads, Place.IsListed])
  | read _ _ | define _ _ | undefine _ _ | start _ _ | stop _ _ _ | isActive _ _ | isAutostart _ _
  | setAutostart _ _ _ | listVolumes _ | readVolume _ _ | createVolume _ _ | deleteVolume _ _ | resizeVolume _ _ _ =>
    exact absurd hx (by simp [Reads])

theorem within_ofVolume (h : c.IsWithin pool volume) : c.Within (Place.OfVolume pool volume) := by
  intro x hx
  cases h with
  | read | delete | resize _ => exact hx
  | create name =>
    rw [← name]
    exact hx

theorem ofVolume_of_writes (h : c.IsWithin pool volume) {x : Place} (hx : c.Writes x) :
    x = .volume pool volume ∨ x.IsEntry := by
  cases h with
  | read => exact hx.elim
  | delete | resize _ => exact hx.imp_right fun heq => ⟨.pool, pool, heq⟩
  | create name =>
    rw [← name]
    exact hx.imp_right fun heq => ⟨.pool, pool, heq⟩

/-- **A call that goes to a volume avoids the other volumes of its pool.** -/
theorem avoids_ofVolume (h : c.IsWithin pool volume) (hne : volume ≠ other) :
    c.Avoids (Place.OfVolume pool other) := by
  refine ⟨fun x hx hwrites => ?_, fun c' hc' hkey => ?_⟩
  · rcases ofVolume_of_writes h hwrites with rfl | ⟨_, _, rfl⟩
    · rcases hx with hx | hx
      · exact absurd hx (by simp)
      · exact hne (Place.volume.inj hx).2
    · exact hx.elim (by simp) (by simp)
  · have hvolume : c.volume? = some volume := by
      cases h with
      | read | delete | resize _ => rfl
      | create name => exact congrArg some name
    obtain ⟨volume', hvolume', hlabel⟩ := label_eq_of_key_eq hkey.symm hvolume
    -- a call that these places settle is about the other volume, if it is about any
    have hother : ∀ p v, p = pool → v = other → volumeLabel pool volume = volumeLabel p v → False := by
      rintro p v rfl rfl heq
      have hlists := congrArg String.toList heq
      simp only [volumeLabel, String.toList_append] at hlists
      exact hne (String.toList_inj.1 (List.append_cancel_left hlists))
    rw [show c.target.2 = some pool from congrArg Prod.snd h.about] at hlabel
    cases c' with
    | readVolume p v | deleteVolume p v | resizeVolume p v _ =>
      have hp : p = pool := by simpa [Place.OfVolume] using hc' _ (.inl rfl)
      have hv : p = pool ∧ v = other := by simpa [Place.OfVolume] using hc' _ (.inr rfl)
      obtain rfl := Option.some.inj hvolume'
      exact hother p v hp hv.2 hlabel
    | createVolume p document =>
      have hp : p = pool := by simpa [Place.OfVolume] using hc' _ (.inl rfl)
      have hv : p = pool ∧ nameInDocument document = other := by simpa [Place.OfVolume] using hc' _ (.inr rfl)
      obtain rfl := Option.some.inj hvolume'
      exact hother p _ hp hv.2 hlabel
    | list _ | read _ _ | define _ _ | undefine _ _ | start _ _ | stop _ _ _ | isActive _ _ | isAutostart _ _
    | setAutostart _ _ _ | listVolumes _ => exact absurd hvolume' (by simp [volume?])

end Call

/-! ### Tasks apart -/

/-- **Tasks about different resources of a kind are apart**, if there is no slash in the names of pools. -/
theorem Talk.Apart.of_isAbout {α : Type} {k : DefinedKind} {name : α → String} {xs : List α}
    {task : α → Talk Recorded} {e : α → Recorded → Prop} (hnames : (xs.map name).Nodup)
    (hslash : k = .pool → ∀ x ∈ xs, '/' ∉ (name x).toList)
    (hcalls : ∀ x ∈ xs, (task x).Confined (Query.CallsOnly (Call.IsAbout k (name x))) (e x))
    (hagrees : ∀ x ∈ xs, Agrees waits (Place.Of k (name x)) (task x)) :
    Apart waits xs (fun x => Place.Of k (name x)) (fun x => Call.IsAbout k (name x)) task := by
  refine ⟨fun x hx => (hcalls x hx).mono (fun _ => id) fun _ _ => trivial, fun x _ c hc => Call.within_placesOf hc,
    fun x _ c hc z hz => Call.placesOf_of_writes hc hz, hagrees, ?_⟩
  refine (List.pairwise_map.1 hnames).imp_of_mem fun {x y} hx hy hne => ?_
  have havoids : ∀ {x y}, x ∈ xs → y ∈ xs → name x ≠ name y → ∀ c : Call, c.IsAbout k (name x) →
      c.Avoids (Place.Of k (name y)) := fun hx hy hne c hc =>
    Call.avoids_placesOf hc (fun heq => hne (Prod.mk.inj heq).2) (fun hk => hslash hk _ hx) fun hk => hslash hk _ hy
  exact ⟨havoids hx hy hne, havoids hy hx (Ne.symm hne)⟩

/-! ### Volumes -/

/-- The task for the volume of an entry. -/
def VolumeEntry.task (e : VolumeEntry) (dry : Bool) (pool : String) (there : List String) : Talk Recorded := do
  let ending ← supervise .volume (e.label pool) (e.sync dry pool (there.contains e.name))
  return ending.recorded

namespace Pool

variable {p q : Pool} {dry : Bool}

/-- If all volumes of a pool get results, their tasks run one after the other. -/
theorem run_syncVolumes_iff {there : List String} {es : List VolumeEntry} {m n : Memory} {rs : List Result} :
    m.run (p.syncVolumes dry there es) = (.ok rs, n) ↔
      m.run (gather (es.map fun e => e.task dry p.name there)) = (.ok rs, n) := by
  induction es generalizing m rs with
  | nil => exact Iff.rfl
  | cons e es ih =>
    rw [List.map_cons, Memory.run_gather_cons, syncVolumes, VolumeEntry.task, Memory.run_bind, Memory.run_bind,
      Memory.run_pure]
    rcases m.run (supervise .volume (e.label p.name) (e.sync dry p.name (there.contains e.name))) with ⟨ending, m'⟩
    cases ending.recorded with
    | error why => simp [Recorded.append, Except.bind]
    | ok r =>
      have hcons : ∀ x : Recorded × Memory, (x.1.map (r ++ ·), x.2) = ((.ok rs, n) : Recorded × Memory) ↔
          ∃ zs, x = (.ok zs, n) ∧ r ++ zs = rs := by
        rintro ⟨a, o⟩
        cases a with
        | error why => simp [Except.map]
        | ok zs => simp [Except.map, and_comm]
      rw [Memory.run_bind]
      refine (hcons (m'.run (p.syncVolumes dry there es))).trans (Iff.trans ?_
        (hcons (m'.run (gather (es.map fun e => e.task dry p.name there)))).symm)
      simp only [ih]

/-- **The tasks for the volumes of a pool are apart.** -/
theorem apart_volumes (hp : p.IsSound) (there : List String) :
    Apart waits p.volumes (fun e => Place.OfVolume p.name e.name) (fun e => Call.IsWithin p.name e.name)
      fun e => e.task dry p.name there := by
  have hcalls : ∀ e ∈ p.volumes, ∀ c, e.Makes dry p.name c → c.IsWithin p.name e.name := fun e he c hc =>
    hc.isWithin (hp.sound e he)
  refine ⟨fun e he => ?_, fun e _ c hc => Call.within_ofVolume hc,
    fun e _ c hc z hz => (Call.ofVolume_of_writes hc hz).imp_left .inr, fun e he => ?_, ?_⟩
  · exact (e.frank_makes dry p.name _).confined_recorded.mono (fun _ hq => hq.mono (hcalls e he)) fun _ _ => trivial
  · exact ((VolumeEntry.agrees_sync (fun c hc => Call.within_ofVolume (hcalls e he c hc)) _).supervise _ _).bind
      fun ending => .pure _
  · refine (List.pairwise_map.1 hp.names).imp fun {e e'} hne => ?_
    exact ⟨fun c hc => Call.avoids_ofVolume hc hne, fun c hc => Call.avoids_ofVolume hc (Ne.symm hne)⟩

end Pool

/-! ### Pools in which the volumes are declared in another order -/

namespace Talk.Apart

variable {α : Type} {P : Place → Prop}

theorem matches_pure {rs rs' : List Result} (h : rs.Perm rs') :
    Matches waits P (pure (.ok rs)) (pure (.ok rs')) := fun _ _ htwins _ hrs =>
  ⟨⟨rs', rfl, Except.ok.inj hrs ▸ h⟩, htwins⟩

theorem matches_error (why : Unwritable) (t' : Talk Recorded) :
    Matches waits P (pure (.error why)) t' := fun _ _ _ _ hrs => absurd hrs (by simp)

/-- What follows a dialogue that agrees. -/
theorem matches_bind {w : Talk α} {f g : α → Talk Recorded} (hw : Agrees waits P w)
    (h : ∀ a, Matches waits P (f a) (g a)) : Matches waits P (w >>= f) (w >>= g) := by
  intro m n htwins
  obtain ⟨hvalue, hend⟩ := hw m n htwins
  rw [Memory.run_bind, Memory.run_bind, hvalue]
  exact h _ _ _ hend

/-- One more result in front. -/
theorem matches_cons {t t' : Talk Recorded} (x : Result) (h : Matches waits P t t') :
    Matches waits P (do let rs ← t; return rs.map (x :: ·)) (do let rs ← t'; return rs.map (x :: ·)) := by
  intro m n htwins rs hrs
  simp only [Memory.run_bind, Memory.run_pure] at hrs ⊢
  cases ht : (m.run t).1 with
  | error why =>
    rw [ht] at hrs
    exact absurd hrs (by simp [Except.map])
  | ok ys =>
    obtain ⟨⟨ys', hys', hperm⟩, hend⟩ := h m n htwins ys ht
    rw [ht] at hrs
    rw [hys']
    exact ⟨⟨x :: ys', rfl, Except.ok.inj hrs ▸ hperm.cons x⟩, hend⟩

end Talk.Apart

namespace Pool

open Talk.Apart

variable {p q : Pool} {dry : Bool}

theorem perm_volumesFailed (h : p.Rearranges q) (operation : Operation) (reason : String) (fk : FailureKind) :
    (p.volumesFailed operation reason fk).Perm (q.volumesFailed operation reason fk) := by
  rw [volumesFailed, volumesFailed, ← h.name]
  exact h.volumes.map _

theorem perm_volumesLost (h : p.Rearranges q) : p.volumesLost.Perm q.volumesLost := by
  rw [volumesLost, volumesLost, ← h.name]
  exact perm_volumesFailed h _ _ _

/-- Volumes in another order. -/
theorem matches_syncVolumes (hp : p.IsSound) (hq : q.IsSound) (h : p.Rearranges q) (there : List String) :
    Matches waits (Place.Of .pool p.name) (p.syncVolumes dry there p.volumes) (q.syncVolumes dry there q.volumes) := by
  intro m n htwins rs hrs
  have hrun := run_syncVolumes_iff.1 (Prod.ext hrs rfl : m.run (p.syncVolumes dry there p.volumes) = (.ok rs, _))
  have hsame : List.Forall₂ (fun e e' : VolumeEntry =>
      Place.OfVolume p.name e.name = Place.OfVolume q.name e'.name ∧
        Matches waits (Place.OfVolume p.name e.name) (e.task dry p.name there) (e'.task dry q.name there))
      p.volumes p.volumes := List.forall₂_same.2 fun e he => by
    rw [← h.name]
    exact ⟨rfl, matches_self ((apart_volumes hp there).agrees e he)⟩
  obtain ⟨⟨rs', hrs', hperm⟩, hend⟩ := (apart_volumes hp there).shuffle (apart_volumes hq there) h.volumes.symm hsame
    (fun _ _ _ hz => hz.of) (fun _ => Place.isPart_of) htwins (congrArg Prod.fst hrun)
  have hrun' := run_syncVolumes_iff.2 (Prod.ext hrs' rfl :
    n.run (gather (q.volumes.map fun e => e.task dry q.name there)) = (.ok rs', _))
  rw [hrun] at hend
  rw [hrun']
  exact ⟨⟨rs', rfl, hperm⟩, hend⟩

/-- **A pool whose volumes are declared in another order fares as before.** -/
theorem matches_task (hp : p.IsSound) (hq : q.IsSound) (h : p.Rearranges q) (exists_ : Bool) :
    Matches waits (Place.Of .pool p.name) (p.task dry exists_) (q.task dry exists_) := by
  have hstarted : q.started = p.started := by
    rw [← h.rest]
    rfl
  have hempty : p.volumes.isEmpty = q.volumes.isEmpty := by
    rw [Bool.eq_iff_iff, List.isEmpty_iff, List.isEmpty_iff, ← List.length_eq_zero_iff, ← List.length_eq_zero_iff,
      h.volumes.length_eq]
  -- the volumes are gone through in another order, but each by itself
  have hcontents : ∀ readable, Matches waits (Place.Of .pool p.name) (p.syncContents dry readable)
      (q.syncContents dry readable) := fun readable => by
    unfold syncContents
    rw [← hempty, ← h.name]
    split
    · exact matches_pure (.refl _)
    · split
      · refine matches_bind (.call (Call.within_placesOf rfl)) fun reply => ?_
        cases reply with
        | ok there => exact matches_syncVolumes hp hq h there
        | error e => exact matches_pure (perm_volumesFailed h _ _ _)
      · exact matches_syncVolumes hp hq h []
  unfold task
  rw [hstarted, ← h.name]
  have hsync : Agrees waits (Place.Of .pool p.name) (p.started.sync dry exists_).run :=
    Started.agrees_sync (fun c hc => Call.within_placesOf ((Makes.started hc).isProper hp).about) exists_
  refine matches_bind (hsync.supervise .pool p.name) fun ending => ?_
  cases ending with
  | finished a => exact matches_cons a.1 (hcontents a.2)
  | failed x => exact matches_pure ((perm_volumesLost h).cons x)
  | cancelled x => exact matches_pure ((h.volumes.map _).cons x)
  | unwritable why => exact matches_error why _

end Pool

/-! ### The resources of a kind -/

/-- **The resources of a kind that are declared in another order** come to the same results in another order, and
leave twin hosts behind, if their tasks are apart. -/
theorem Stock.shuffle_tasks {α : Type} {R : α → α → Prop} {x y : Declared α} {k : DefinedKind} {name : α → String}
    {lost : α → List Result} {task task' : α → Bool → Talk Recorded} (s : Stock) (h : x.Rearranges R y)
    (hname : ∀ a b, R a b → name a = name b) (hlost : ∀ a b, R a b → (lost a).Perm (lost b))
    (hapart : ∀ there : α → Bool, Apart waits x.items (fun a => Place.Of k (name a)) (fun a => Call.IsAbout k (name a))
      fun a => task a (there a))
    (hapart' : ∀ there : α → Bool, Apart waits y.items (fun a => Place.Of k (name a))
      (fun a => Call.IsAbout k (name a)) fun a => task' a (there a))
    (hmatch : ∀ a ∈ x.items, ∀ b, R a b → ∀ exists_,
      Apart.Matches waits (Place.Of k (name a)) (task a exists_) (task' b exists_))
    {m n m' : Memory} (htwins : Memory.Twins waits Place.IsPart m n) {rs : List Result}
    (hrun : m.run (gather (s.tasks k x.items name lost task)) = (.ok rs, m')) :
    ∃ rs' n', n.run (gather (s.tasks k y.items name lost task')) = (.ok rs', n') ∧ rs.Perm rs' ∧
      Memory.Twins waits Place.IsPart m' n' := by
  cases s with
  | leftAlone results =>
    obtain ⟨hvalue, rfl⟩ := Prod.mk.inj hrun
    exact ⟨rs, n, Prod.ext hvalue rfl, .refl _, htwins⟩
  | unknown reason =>
    rw [run_tasks_unknown] at hrun
    obtain ⟨hvalue, rfl⟩ := Prod.mk.inj hrun
    refine ⟨_, n, run_tasks_unknown n reason, ?_, htwins⟩
    rw [← Except.ok.inj hvalue]
    exact (h.perm_map fun a b hab => by rw [hname a b hab]).append (h.perm_flatMap hlost)
  | known names =>
    -- first each task is exchanged for its counterpart, and then the order of the tasks is changed
    obtain ⟨cs, hsame, hperm⟩ := h.exists_perm
    have hmatch : List.Forall₂ (fun a c => Place.Of k (name a) = Place.Of k (name c) ∧
        Apart.Matches waits (Place.Of k (name a)) (task a (names.contains (name a)))
          (task' c (names.contains (name c)))) x.items cs := by
      refine ((List.forall₂_and_left x.items cs).2 ⟨fun _ => id, hsame⟩).imp fun a c hac => ?_
      rw [← hname a c hac.2]
      exact ⟨rfl, hmatch a hac.1 c hac.2 _⟩
    obtain ⟨⟨rs', hrs', hrest⟩, hend⟩ := (hapart _).shuffle (hapart' _) hperm hmatch
      (fun _ _ _ => Place.isPart_of) (fun _ => id) htwins (congrArg Prod.fst hrun)
    refine ⟨rs', _, Prod.ext hrs' rfl, hrest, ?_⟩
    rw [show m.run (gather (x.items.map fun a => task a (names.contains (name a)))) = _ from hrun] at hend
    exact hend

/-! ### Removals -/

/-- The removal of a domain agrees where its entry is settled. -/
theorem Domain.agrees_removal {P : Place → Prop} {name : String} (hP : P (.resource .domain name)) (dry : Bool) :
    Agrees waits P (removal dry name) := by
  have hwithin : ∀ {c : Call}, (∀ x, c.Reads x → x = .resource .domain name) → c.Within P :=
    fun hc x hx => hc x hx ▸ hP
  have hremove : Agrees waits P (remove dry name).run :=
    .seq (.attempt (hwithin fun _ => id)) fun _ => .seq (.change fun _ => hwithin fun _ => id) fun _ => .pure _
  exact (hremove.supervise .domain name).bind fun ending => .pure _

namespace Removal

theorem agrees_referencesOf (results : List Result) (domains : List String) :
    Agrees waits Place.IsPart (referencesOf results domains) := by
  induction domains with
  | nil => exact .pure _
  | cons domain domains ih =>
    unfold referencesOf
    split
    · exact ih
    · refine (Agrees.call (Call.within_isPart _)).bind fun reply => ?_
      split
      · exact .pure _
      · split
        · exact .pure _
        · exact ih.bind fun _ => .pure _

/-- **The removal of networks and pools agrees.** -/
theorem agrees_run (dry : Bool) (results : List Result) (stale : List (DefinedKind × String)) :
    Agrees waits Place.IsPart (run dry results stale) := by
  unfold run
  split
  · exact .pure _
  · refine Agrees.cancelled.bind fun gone => ?_
    split
    · exact .pure _
    · have hreferences : Agrees waits Place.IsPart (references results) := by
        refine (Agrees.call (Call.within_isPart _)).bind fun reply => ?_
        split
        · exact .pure _
        · exact agrees_referencesOf results _
      refine hreferences.bind fun refs => ?_
      split
      · exact .pure _
      · refine Agrees.gather (List.forall_mem_map.2 fun s _ => ?_)
        rw [task_eq]
        split
        · have hremove : Agrees waits Place.IsPart (remove dry s.1 s.2).run :=
            .seq (.change fun _ => Call.within_isPart _) fun _ => .pure _
          exact (hremove.supervise _ _).bind fun ending => .pure _
        · exact .pure _

/-- Which results there are matters by which domains were removed. -/
theorem referencesOf_congr {results results' : List Result}
    (h : ∀ domain, wasRemoved results domain = wasRemoved results' domain) (domains : List String) :
    referencesOf results domains = referencesOf results' domains := by
  induction domains with
  | nil => rfl
  | cons domain domains ih => rw [referencesOf, referencesOf, h, ih]

theorem run_congr {results results' : List Result}
    (h : ∀ domain, wasRemoved results domain = wasRemoved results' domain) (dry : Bool)
    (stale : List (DefinedKind × String)) : run dry results stale = run dry results' stale := by
  have hreferences : references results = references results' := by
    unfold references
    simp only [referencesOf_congr h]
  rw [run, run, hreferences]

end Removal

end VirtualTopology
