import Mathlib.Data.List.Forall2
import VirtualTopology.Proofs.Host.Twins
import VirtualTopology.Proofs.Pass.Gather

/-!
# Tasks apart

Tasks are apart if each has places of its own that settle what it does and that the others avoid
(`Talk.Apart`). Then each does among the others what it does alone on the host as it is before all of them,
and leaves the same in its places (`Talk.Apart.run_gather`), so that nothing depends on the order. On twin
hosts, tasks in another order have the same results in another order, and leave twins behind
(`Talk.Apart.shuffle`).

The places of a network, pool or domain are apart from those of another (`Call.avoids_placesOf`). Calls about
volumes of two pools with the same word and label would be counted by the same disruptions, but if there is no
slash in the names of pools, no two pools have volumes with the same label (`volumeLabel_inj`).
-/

namespace VirtualTopology

open Dialogue

/-! ### The places of a resource -/

/-- The label of a volume gives the pool and the name, if there is no slash in the names of pools. -/
theorem volumeLabel_inj {pool pool' volume volume' : String} (hpool : '/' ∉ pool.toList) (hpool' : '/' ∉ pool'.toList)
    (h : volumeLabel pool volume = volumeLabel pool' volume') : pool = pool' ∧ volume = volume' := by
  have htoList : ∀ p v : String, (volumeLabel p v).toList = p.toList ++ '/' :: v.toList := fun p v => by
    simp [volumeLabel]
  have hbefore : ∀ p v : String, '/' ∉ p.toList →
      (volumeLabel p v).toList.takeWhile (· != '/') = p.toList := fun p v hp => by
    have hnot : ∀ c ∈ p.toList, (c != '/') = true := fun c hc => bne_iff_ne.2 fun heq => hp (by rw [← heq]; exact hc)
    rw [htoList, List.takeWhile_append_of_pos hnot]
    simp
  have hsame : pool = pool' := String.toList_inj.1 (by
    rw [← hbefore pool volume hpool, ← hbefore pool' volume' hpool', h])
  subst hsame
  refine ⟨rfl, String.toList_inj.1 ?_⟩
  have hlists := congrArg String.toList h
  rw [htoList, htoList] at hlists
  exact (List.cons.inj (List.append_cancel_left hlists)).2

namespace Place

/-- Whether a place is an entry as a whole. -/
def IsEntry (x : Place) : Prop := ∃ k name, x = .entry k name

/-- The places of a resource, with those of the volumes of a pool. -/
def Of (k : DefinedKind) (name : String) : Place → Prop
  | resource l n | listed l n => l = k ∧ n = name
  | volume pool _ => k = .pool ∧ pool = name
  | entry _ _ => False

end Place

namespace Call

variable {k l : DefinedKind} {name other : String} {c : Call}

/-- The places of a resource settle what a call about it does. -/
theorem within_placesOf (h : c.IsAbout k name) : c.Within (Place.Of k name) := by
  intro x hx
  rcases reads_cases h hx with rfl | ⟨rfl, v, rfl⟩
  · exact ⟨rfl, rfl⟩
  · exact ⟨rfl, rfl⟩

/-- A call about a resource changes its places only. -/
theorem placesOf_of_writes (h : c.IsAbout k name) {x : Place} (hx : c.Writes x) :
    Place.Of k name x ∨ x.IsEntry := by
  rcases writes_cases h hx with rfl | rfl | rfl | ⟨rfl, v, rfl⟩
  · exact .inl ⟨rfl, rfl⟩
  · exact .inr ⟨k, name, rfl⟩
  · exact .inl ⟨rfl, rfl⟩
  · exact .inl ⟨rfl, rfl⟩

/-- A call that the places of a resource settle is about it. -/
theorem isAbout_of_within (h : c.Within (Place.Of k name)) : c.IsAbout k name := by
  have habout : ∀ l n, c.IsAbout l n → c.IsAbout k name := fun l n hc => by
    obtain ⟨rfl, rfl⟩ : l = k ∧ n = name := h _ (reads_resource hc)
    exact hc
  cases c with
  | list l =>
    -- a listing reads more names than one
    obtain ⟨-, hname⟩ : l = k ∧ name ++ "'" = name := h _ ⟨_, rfl⟩
    exact absurd (congrArg String.length hname) (by simp)
  | read _ _ | define _ _ | undefine _ _ | start _ _ | stop _ _ _ | isActive _ _ | isAutostart _ _
  | setAutostart _ _ _ | listVolumes _ | readVolume _ _ | createVolume _ _ | deleteVolume _ _ | resizeVolume _ _ _ =>
    exact habout _ _ rfl

/-- **A call about a resource avoids the places of another**, if there is no slash in the names of pools. -/
theorem avoids_placesOf (hc : c.IsAbout k name) (hne : (k, name) ≠ (l, other))
    (hslash : k = .pool → '/' ∉ name.toList) (hslash' : l = .pool → '/' ∉ other.toList) :
    c.Avoids (Place.Of l other) := by
  refine ⟨fun x hx hwrites => ?_, fun c' hc' hkey => ?_⟩
  · refine hne ?_
    rcases placesOf_of_writes hc hwrites with hof | ⟨_, _, rfl⟩
    · cases x with
      | resource _ _ | listed _ _ => rw [← hof.1, ← hof.2, ← hx.1, ← hx.2]
      | volume _ _ => rw [hof.1, ← hof.2, hx.1, ← hx.2]
      | entry _ _ => exact hof.elim
    · exact hx.elim
  · have habout' := isAbout_of_within hc'
    cases hv : c.volume? with
    | none =>
      have htarget := (target_eq_of_key_eq hkey.symm hv).symm.trans hc
      rw [habout'] at htarget
      obtain ⟨rfl, hname⟩ := Prod.mk.inj htarget
      exact hne (by rw [Option.some.inj hname])
    | some volume =>
      obtain ⟨volume', hv', hlabel⟩ := label_eq_of_key_eq hkey.symm hv
      -- calls about volumes go to pools; these have no slash in their names, so labels are the same only for one pool
      have hkind : ∀ {c : Call} {k n v}, c.IsAbout k n → c.volume? = some v → k = .pool := fun {c _ _ _} hc hv => by
        cases c with
        | readVolume _ _ | createVolume _ _ | deleteVolume _ _ | resizeVolume _ _ _ =>
          exact (congrArg Prod.fst hc).symm
        | list _ | read _ _ | define _ _ | undefine _ _ | start _ _ | stop _ _ _ | isActive _ _ | isAutostart _ _
        | setAutostart _ _ _ | listVolumes _ => exact absurd hv (by simp [volume?])
      obtain rfl := hkind hc hv
      obtain rfl := hkind habout' hv'
      rw [show c.target = _ from hc, show c'.target = _ from habout'] at hlabel
      exact hne (by rw [(volumeLabel_inj (hslash rfl) (hslash' rfl) hlabel).1])

end Call

/-! ### What a dialogue leaves as it is -/

namespace Memory

variable {α : Type} {d : Talk α} {e : α → Prop} {m : Memory}

/-- A dialogue that does not write a place leaves it the same. -/
theorem same_run_of_spared {x : Place} (h : d.Confined (Query.CallsOnly fun c => ¬ c.Writes x) e) (m : Memory) :
    x.Same m.tables (m.run d).2.tables := by
  refine run_invariant h (I := fun s => x.Same m.tables s.tables) (fun s q hq hs => ?_) (.refl x _)
  cases q with
  | call c =>
    rcases tables_call s c with heq | ⟨a, ha⟩
    · rw [show (s.answer (.call c)).2.tables = s.tables from heq]
      exact hs
    · exact hs.trans (Tables.same_serve ha hq)
  | cancelled | now | sleep _ => exact hs

/-- A dialogue takes nothing from what is in store for calls with other words and subjects. -/
theorem failures_run_of_spared {c : Call} (h : d.Confined (Query.CallsOnly fun c' => c.key ≠ c'.key) e)
    {waits : String → Prop} (hm : m.Orderly waits) :
    c.failures (m.run d).2.disruptions = c.failures m.disruptions := by
  refine (run_invariant h (I := fun s => s.Orderly waits ∧ c.failures s.disruptions = c.failures m.disruptions)
    (fun s q hq hs => ⟨hs.1.answer q, ?_⟩) ⟨hm, rfl⟩).2
  rw [← hs.2, disruptions_answer]
  cases q with
  | call c' => exact Call.failures_strike?_of_key_ne hs.1.addressed hq
  | cancelled | now | sleep _ => rfl

end Memory

/-! ### Results in another order -/

namespace Recorded

variable {r r' r'' s s' : Recorded}

/-- Whether there are the same results in another order, if there are any. -/
def Shuffles (r r' : Recorded) : Prop := ∀ xs, r = .ok xs → ∃ xs', r' = .ok xs' ∧ xs.Perm xs'

theorem Shuffles.refl (r : Recorded) : r.Shuffles r := fun xs h => ⟨xs, h, .refl xs⟩

theorem Shuffles.trans (h : r.Shuffles r') (h' : r'.Shuffles r'') : r.Shuffles r'' := fun xs hxs => by
  obtain ⟨xs', hxs', hperm⟩ := h xs hxs
  obtain ⟨xs'', hxs'', hperm'⟩ := h' xs' hxs'
  exact ⟨xs'', hxs'', hperm.trans hperm'⟩

theorem Shuffles.append (h : r.Shuffles r') (h' : s.Shuffles s') : (r.append s).Shuffles (r'.append s') := by
  intro xs hxs
  obtain ⟨ys, zs, hys, hzs, rfl⟩ := append_eq_ok_iff.1 hxs
  obtain ⟨ys', hys', hy⟩ := h ys hys
  obtain ⟨zs', hzs', hz⟩ := h' zs hzs
  exact ⟨ys' ++ zs', append_eq_ok_iff.2 ⟨ys', zs', hys', hzs', rfl⟩, hy.append hz⟩

/-- The results of each of several tasks in another order. -/
theorem shuffles_all {rs rs' : List Recorded} (h : List.Forall₂ Shuffles rs rs') : (all rs).Shuffles (all rs') := by
  induction h with
  | nil => exact .refl _
  | cons hr _ ih => exact hr.append ih

/-- The results of tasks in another order. -/
theorem shuffles_all_of_perm {rs rs' : List Recorded} (h : rs.Perm rs') : (all rs).Shuffles (all rs') := by
  induction h with
  | nil => exact .refl _
  | cons r _ ih => exact (Shuffles.refl r).append ih
  | swap r s rs =>
    intro xs hxs
    obtain ⟨ys, _, hys, hrest, rfl⟩ := append_eq_ok_iff.1 hxs
    obtain ⟨zs, us, hzs, hus, rfl⟩ := append_eq_ok_iff.1 hrest
    refine ⟨zs ++ (ys ++ us), append_eq_ok_iff.2 ⟨zs, _, hzs, append_eq_ok_iff.2 ⟨ys, us, hys, hus, rfl⟩, rfl⟩, ?_⟩
    rw [← List.append_assoc, ← List.append_assoc]
    exact List.perm_append_comm.append_right us
  | trans _ _ ih ih' => exact ih.trans ih'

end Recorded

/-- What is in one of two lists side by side has something beside it in the other. -/
theorem exists_of_forall₂ {α β : Type} {R : α → β → Prop} {xs : List α} {ys : List β}
    (h : List.Forall₂ R xs ys) {x : α} (hx : x ∈ xs) : ∃ y ∈ ys, R x y := by
  induction h with
  | nil => exact absurd hx (by simp)
  | cons hxy _ ih =>
    rcases List.mem_cons.1 hx with rfl | hx
    · exact ⟨_, by simp, hxy⟩
    · obtain ⟨y, hy, hxy⟩ := ih hx
      exact ⟨y, by simp [hy], hxy⟩

/-! ### Tasks -/

namespace Talk

variable {ι κ : Type} {waits : String → Prop}

/-- Whether tasks are apart: each makes calls of its own, which places of its own settle and which change these
only, and the others avoid its places. -/
structure Apart (waits : String → Prop) (xs : List ι) (P : ι → Place → Prop) (C : ι → Call → Prop)
    (task : ι → Talk Recorded) : Prop where
  calls : ∀ x ∈ xs, (task x).Confined (Query.CallsOnly (C x)) fun _ => True
  within : ∀ x ∈ xs, ∀ c, C x c → c.Within (P x)
  writes : ∀ x ∈ xs, ∀ c, C x c → ∀ z, c.Writes z → P x z ∨ z.IsEntry
  agrees : ∀ x ∈ xs, Agrees waits (P x) (task x)
  avoids : xs.Pairwise fun x y => (∀ c, C x c → c.Avoids (P y)) ∧ ∀ c, C y c → c.Avoids (P x)

namespace Apart

variable {xs : List ι} {P : ι → Place → Prop} {C : ι → Call → Prop} {task : ι → Talk Recorded} {m n : Memory}

theorem tail {x : ι} (h : Apart waits (x :: xs) P C task) : Apart waits xs P C task :=
  ⟨fun y hy => h.calls y (by simp [hy]), fun y hy => h.within y (by simp [hy]), fun y hy => h.writes y (by simp [hy]),
    fun y hy => h.agrees y (by simp [hy]), (List.pairwise_cons.1 h.avoids).2⟩

/-- The calls of all tasks. -/
theorem confined_gather (h : Apart waits xs P C task) {Q : Call → Prop} (hQ : ∀ x ∈ xs, ∀ c, C x c → Q c) :
    (gather (xs.map task)).Confined (Query.CallsOnly Q) fun _ => True := by
  have htask : ∀ t ∈ xs.map task, t.Confined (Query.CallsOnly Q) (Recorded.All fun _ => True) :=
    List.forall_mem_map.2 fun x hx => (h.calls x hx).mono (fun _ hq => hq.mono (hQ x hx)) fun _ _ _ _ _ _ => trivial
  exact (Confined.gather htask).mono (fun _ => id) fun _ _ => trivial

/-- **Each of several tasks apart does what it does alone**, and what it leaves in its places stays. -/
theorem run_gather (h : Apart waits xs P C task) (hm : m.Orderly waits) :
    (m.run (gather (xs.map task))).1 = .all (xs.map fun x => (m.run (task x)).1) ∧
      ∀ x ∈ xs, Memory.Twins waits (P x) (m.run (gather (xs.map task))).2 (m.run (task x)).2 := by
  induction xs generalizing m with
  | nil => exact ⟨rfl, by simp⟩
  | cons x xs ih =>
    obtain ⟨hothers, -⟩ := List.pairwise_cons.1 h.avoids
    obtain ⟨hvalues, hplaces⟩ := ih h.tail (hm.run (task x))
    -- behind the first task the others find their places as they were
    have hthere : ∀ y ∈ xs, ((m.run (task x)).2.run (task y)).1 = (m.run (task y)).1 ∧
        Memory.Twins waits (P y) ((m.run (task x)).2.run (task y)).2 (m.run (task y)).2 := fun y hy =>
      h.agrees y (by simp [hy]) _ _ ((Memory.Twins.refl hm).run_left ((h.calls x (by simp)).mono
        (fun _ hq => hq.mono fun c hc => (hothers y hy).1 c hc) fun _ => id))
    rw [List.map_cons, Memory.run_gather_cons]
    refine ⟨?_, fun y hy => ?_⟩
    · rw [hvalues, List.map_cons, Recorded.all_cons, List.map_congr_left fun y hy => (hthere y hy).1]
    · rcases List.mem_cons.1 hy with rfl | hy
      · exact (Memory.Twins.refl (hm.run (task y))).run_left (h.tail.confined_gather fun z hz c hc =>
          (hothers z hz).2 c hc)
      · exact (hplaces y hy).trans (hthere y hy).2

/-! ### In another order -/

variable {ys zs : List κ} {P' : κ → Place → Prop} {C' : κ → Call → Prop} {task' : κ → Talk Recorded}
  {W : Place → Prop}

/-- Whether one task comes to the same results as another in another order and leaves its places the same, if it
comes to results. -/
def Matches (waits : String → Prop) (P : Place → Prop) (t t' : Talk Recorded) : Prop :=
  Relates (Memory.Twins waits P) t t' fun r r' m n =>
    ∀ rs, r = .ok rs → (∃ rs', r' = .ok rs' ∧ rs.Perm rs') ∧ Memory.Twins waits P m n

theorem matches_self {P : Place → Prop} {t : Talk Recorded} (h : Agrees waits P t) : Matches waits P t t :=
  fun m n htwins rs hrs =>
    have hend := h m n htwins
    ⟨⟨rs, hend.1.symm.trans hrs, .refl rs⟩, hend.2⟩

/-- What tasks apart do not change: the places of none of them. -/
theorem same_run_gather (h : Apart waits xs P C task) (m : Memory) {z : Place} (hz : ¬ z.IsEntry)
    (hnone : ∀ x ∈ xs, ¬ P x z) : z.Same m.tables (m.run (gather (xs.map task))).2.tables :=
  Memory.same_run_of_spared (h.confined_gather fun x hx c hc hwrites =>
    (h.writes x hx c hc z hwrites).elim (hnone x hx) hz) m

/-- **Tasks apart in another order** have the same results in another order and leave twins behind. -/
theorem shuffle (h : Apart waits xs P C task) (h' : Apart waits ys P' C' task') (hperm : ys.Perm zs)
    (hmatch : List.Forall₂ (fun x z => P x = P' z ∧ Matches waits (P x) (task x) (task' z)) xs zs)
    (hinside : ∀ x ∈ xs, ∀ z, P x z → W z) (hentry : ∀ z, W z → ¬ z.IsEntry) (htwins : Memory.Twins waits W m n)
    {rs : List Result} (hrs : (m.run (gather (xs.map task))).1 = .ok rs) :
    (∃ rs', (n.run (gather (ys.map task'))).1 = .ok rs' ∧ rs.Perm rs') ∧
      Memory.Twins waits W (m.run (gather (xs.map task))).2 (n.run (gather (ys.map task'))).2 := by
  obtain ⟨hvalues, hplaces⟩ := h.run_gather htwins.left
  obtain ⟨hvalues', hplaces'⟩ := h'.run_gather htwins.right
  rw [hvalues] at hrs
  have hmatch := (List.forall₂_and_left xs zs).2 ⟨hinside, hmatch⟩
  -- side by side, each two tasks leave twins behind when they run alone, and so among the others
  have hown : ∀ x ∈ xs, Memory.Twins waits (P x) (m.run (gather (xs.map task))).2
      (n.run (gather (ys.map task'))).2 := fun x hx => by
    obtain ⟨z, hz, hin, heq, hmatches⟩ := exists_of_forall₂ hmatch hx
    obtain ⟨xs, hxs⟩ := (Recorded.mem_of_all_eq_ok (x := default) hrs).1 _ (List.mem_map_of_mem hx)
    have hz' := hplaces' z (hperm.mem_iff.2 hz)
    rw [← heq] at hz'
    exact (hplaces x hx).trans ((hmatches m n (htwins.mono hin) xs hxs).2.trans hz'.symm)
  refine ⟨?_, htwins.left.run _, htwins.right.run _, fun z hz => ?_, ?_, fun c hc => ?_⟩
  · have hshuffled : List.Forall₂ Recorded.Shuffles (xs.map fun x => (m.run (task x)).1)
        (zs.map fun z => (n.run (task' z)).1) := by
      rw [List.forall₂_map_left_iff, List.forall₂_map_right_iff]
      exact hmatch.imp fun x z hxz rs hrs => (hxz.2.2 m n (htwins.mono hxz.1) rs hrs).1
    rw [hvalues']
    exact ((Recorded.shuffles_all hshuffled).trans (Recorded.shuffles_all_of_perm (hperm.map _).symm)) rs hrs
  · by_cases hsome : ∃ x ∈ xs, P x z
    · obtain ⟨x, hx, hxz⟩ := hsome
      exact (hown x hx).same z hxz
    · have hnone : ∀ x ∈ xs, ¬ P x z := fun x hx hxz => hsome ⟨x, hx, hxz⟩
      have hnone' : ∀ y ∈ ys, ¬ P' y z := fun y hy hyz => by
        obtain ⟨x, hx, -, heq, -⟩ := exists_of_forall₂ hmatch.flip (hperm.mem_iff.1 hy)
        exact hnone x hx (by rw [heq]; exact hyz)
      exact ((h.same_run_gather m (hentry z hz) hnone).symm.trans (htwins.same z hz)).trans
        (h'.same_run_gather n (hentry z hz) hnone')
  · rw [Memory.polls_run, Memory.polls_run]
    exact htwins.polls
  · by_cases hsome : ∃ x ∈ xs, ∃ c' : Call, c'.Within (P x) ∧ c.key = c'.key
    · obtain ⟨x, hx, c', hc', hkey⟩ := hsome
      rw [Call.failures_of_key_eq hkey, Call.failures_of_key_eq hkey]
      exact (hown x hx).failures c' hc'
    · have hnone : ∀ x ∈ xs, ∀ c' : Call, c'.Within (P x) → c.key ≠ c'.key := fun x hx c' hc' hkey =>
        hsome ⟨x, hx, c', hc', hkey⟩
      have hnone' : ∀ y ∈ ys, ∀ c' : Call, c'.Within (P' y) → c.key ≠ c'.key := fun y hy c' hc' => by
        obtain ⟨x, hx, -, heq, -⟩ := exists_of_forall₂ hmatch.flip (hperm.mem_iff.1 hy)
        exact hnone x hx c' (heq ▸ hc')
      rw [Memory.failures_run_of_spared (h.confined_gather fun x hx c' hc' => hnone x hx c' (h.within x hx c' hc'))
        htwins.left, Memory.failures_run_of_spared
        (h'.confined_gather fun y hy c' hc' => hnone' y hy c' (h'.within y hy c' hc')) htwins.right]
      exact htwins.failures c hc

end Apart

end Talk

end VirtualTopology
