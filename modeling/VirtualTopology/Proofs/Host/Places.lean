import VirtualTopology.Proofs.Host.Rest

/-!
# Places

What a call does is settled by a few places on the host (`Call.Reads`): on hosts that are the same there, it
has the same answer and leaves the same behind (`Tables.serve_of_same`). Every place that a call does not
write (`Call.Writes`) stays as it is (`Tables.same_serve`).

The volumes of a pool are places of their own, and so is what a listing says of a name. Whether such a place is
the same (`Place.Same`) does not depend on the order of the entries of a table.
-/

namespace VirtualTopology

/-! ### Names in tables -/

namespace Table

variable {α : Type} {t : Table α} {name other : String}

theorem names_put (t : Table α) (name : String) (a : α) :
    (t.put name a).names = if (t.get? name).isSome then t.names else t.names ++ [name] := by
  induction t with
  | nil => rfl
  | cons e t ih =>
    obtain ⟨n, b⟩ := e
    by_cases hn : n = name
    · simp [put, get?_cons, hn, names]
    · have hname : names ((n, b) :: put t name a) = n :: names (put t name a) := rfl
      rw [put, if_neg hn, hname, ih, get?_cons, if_neg hn]
      split <;> rfl

theorem names_erase (t : Table α) (name : String) : (t.erase name).names = t.names.filter (· != name) := by
  rw [names, names, erase, List.filter_map]
  rfl

theorem count_names_put (t : Table α) (name other : String) (a : α) :
    (t.put name a).names.count other =
      if (t.get? name).isSome then t.names.count other
      else t.names.count other + if name = other then 1 else 0 := by
  rw [names_put]
  split
  · rfl
  · simp [List.count_append, List.count_singleton]

theorem count_names_erase (t : Table α) (name other : String) :
    (t.erase name).names.count other = if name = other then 0 else t.names.count other := by
  rw [names_erase]
  by_cases h : name = other
  · rw [if_pos h, List.count_eq_zero]
    simp [h]
  · rw [if_neg h, List.count_filter]
    simpa using Ne.symm h

/-- Tables that are the same under two names are the same under one of them after something has been put
under the other. -/
theorem same_put {u : Table α} (h : t.get? name = u.get? name)
    (hother : t.get? other = u.get? other ∧ t.names.count other = u.names.count other) (a : α) :
    (t.put name a).get? other = (u.put name a).get? other ∧
      (t.put name a).names.count other = (u.put name a).names.count other := by
  rw [get?_put, get?_put, count_names_put, count_names_put, h, hother.1, hother.2]
  exact ⟨rfl, rfl⟩

end Table

/-! ### Places -/

/-- A resource without what belongs to other places: a pool without its volumes. -/
def StoredResource.bare (k : DefinedKind) (r : StoredResource) : StoredResource :=
  match k with
  | .pool => { r with volumes := [] }
  | _ => r

namespace StoredResource

variable (k : DefinedKind) (r : StoredResource)

@[simp] theorem document_bare : (r.bare k).document = r.document := by cases k <;> rfl

@[simp] theorem active_bare : (r.bare k).active = r.active := by cases k <;> rfl

@[simp] theorem autostart_bare : (r.bare k).autostart = r.autostart := by cases k <;> rfl

@[simp] theorem closing_bare : (r.bare k).closing = r.closing := by cases k <;> rfl

theorem bare_started : r.started.bare k = (r.bare k).started := by cases k <;> rfl

theorem bare_stopped : r.stopped.bare k = (r.bare k).stopped := by cases k <;> rfl

theorem bare_seen : r.seen.bare k = (r.bare k).seen := by
  unfold seen
  rw [closing_bare]
  split <;> cases k <;> rfl

@[simp] theorem volumes_asked (polls : Int) : (r.asked polls).volumes = r.volumes := by
  unfold asked
  split
  · rfl
  · split <;> rfl

theorem bare_asked (polls : Int) : (r.asked polls).bare k = (r.bare k).asked polls := by
  unfold asked
  split
  · rfl
  · split <;> cases k <;> rfl

end StoredResource

/-- The volumes of a pool; none if the pool is not there. -/
def Tables.volumesOf (t : Tables) (pool : String) : Table StoredVolume :=
  (t.get? .pool pool).elim [] (·.volumes)

/-- A place on a host. -/
inductive Place where
  /-- A resource, but for the volumes of a pool. -/
  | resource (kind : DefinedKind) (name : String)
  | volume (pool name : String)
  /-- Whether a name is listed, and how often. -/
  | listed (kind : DefinedKind) (name : String)
  /-- All that is stored under a name, with the volumes in order. -/
  | entry (kind : DefinedKind) (name : String)

/-- Whether a place belongs to the listing of a kind. -/
def Place.IsListed (k : DefinedKind) (x : Place) : Prop := ∃ name, x = .listed k name

/-- Whether a place is the same on two hosts. -/
def Place.Same : Place → Tables → Tables → Prop
  | resource k name, t, u => (t.get? k name).map (·.bare k) = (u.get? k name).map (·.bare k)
  | volume pool name, t, u =>
      (t.volumesOf pool).get? name = (u.volumesOf pool).get? name ∧
        (t.volumesOf pool).names.count name = (u.volumesOf pool).names.count name
  | listed k name, t, u => (t.table k).names.count name = (u.table k).names.count name
  | entry k name, t, u => t.get? k name = u.get? k name

namespace Place.Same

variable {x : Place} {t u v : Tables}

theorem refl (x : Place) (t : Tables) : x.Same t t := by
  cases x with
  | resource k name => exact rfl
  | volume pool name => exact ⟨rfl, rfl⟩
  | listed k name => exact rfl
  | entry k name => exact rfl

theorem symm (h : x.Same t u) : x.Same u t := by
  cases x with
  | resource k name => exact Eq.symm h
  | volume pool name => exact ⟨h.1.symm, h.2.symm⟩
  | listed k name => exact Eq.symm h
  | entry k name => exact Eq.symm h

theorem trans (h : x.Same t u) (h' : x.Same u v) : x.Same t v := by
  cases x with
  | resource k name => exact Eq.trans h h'
  | volume pool name => exact ⟨h.1.trans h'.1, h.2.trans h'.2⟩
  | listed k name => exact Eq.trans h h'
  | entry k name => exact Eq.trans h h'

end Place.Same

namespace Call

/-- The places that settle what a call does. -/
def Reads : Call → Place → Prop
  | list k, x => x.IsListed k
  | define k document, x => x = .resource k (nameInDocument document)
  | read k name, x | undefine k name, x | start k name, x | stop k name _, x | isActive k name, x
  | isAutostart k name, x | setAutostart k name _, x => x = .resource k name
  | listVolumes pool, x => x = .resource .pool pool ∨ ∃ name, x = .volume pool name
  | createVolume pool document, x => x = .resource .pool pool ∨ x = .volume pool (nameInDocument document)
  | readVolume pool name, x | deleteVolume pool name, x | resizeVolume pool name _, x =>
      x = .resource .pool pool ∨ x = .volume pool name

/-- The places that a call can change. -/
def Writes : Call → Place → Prop
  | list _, _ | read .., _ | isAutostart .., _ | listVolumes _, _ | readVolume .., _ => False
  | define k document, x =>
      x = .resource k (nameInDocument document) ∨ x = .entry k (nameInDocument document) ∨
        x = .listed k (nameInDocument document)
  | undefine k name, x =>
      x = .resource k name ∨ x = .entry k name ∨ x = .listed k name ∨
        k = .pool ∧ ∃ volume, x = .volume name volume
  | start k name, x | stop k name _, x | isActive k name, x | setAutostart k name _, x =>
      x = .resource k name ∨ x = .entry k name
  | createVolume pool document, x => x = .volume pool (nameInDocument document) ∨ x = .entry .pool pool
  | deleteVolume pool name, x | resizeVolume pool name _, x => x = .volume pool name ∨ x = .entry .pool pool

/-- A call about a resource reads its place, and for a pool those of its volumes. -/
theorem reads_resource {k : DefinedKind} {name : String} {c : Call} (h : c.IsAbout k name) :
    c.Reads (.resource k name) := by
  cases c with
  | list _ => exact absurd h (by simp [IsAbout, target])
  | read _ _ | define _ _ | undefine _ _ | start _ _ | stop _ _ _ | isActive _ _ | isAutostart _ _
  | setAutostart _ _ _ =>
    cases h
    exact rfl
  | listVolumes _ | readVolume _ _ | createVolume _ _ | deleteVolume _ _ | resizeVolume _ _ _ =>
    cases h
    exact .inl rfl

/-- A call about a resource reads nothing but its place and, for a pool, those of its volumes. -/
theorem reads_cases {k : DefinedKind} {name : String} {c : Call} (h : c.IsAbout k name) {x : Place}
    (hx : c.Reads x) : x = .resource k name ∨ k = .pool ∧ ∃ volume, x = .volume name volume := by
  cases c with
  | list _ => exact absurd h (by simp [IsAbout, target])
  | read _ _ | define _ _ | undefine _ _ | start _ _ | stop _ _ _ | isActive _ _ | isAutostart _ _
  | setAutostart _ _ _ =>
    cases h
    exact .inl hx
  | listVolumes _ =>
    cases h
    exact hx.imp_right fun hvolume => ⟨rfl, hvolume⟩
  | readVolume _ _ | createVolume _ _ | deleteVolume _ _ | resizeVolume _ _ _ =>
    cases h
    exact hx.imp_right fun hvolume => ⟨rfl, _, hvolume⟩

/-- A call about a resource writes nothing but its places and, for a pool, those of its volumes. -/
theorem writes_cases {k : DefinedKind} {name : String} {c : Call} (h : c.IsAbout k name) {x : Place}
    (hx : c.Writes x) : x = .resource k name ∨ x = .entry k name ∨ x = .listed k name ∨
      k = .pool ∧ ∃ volume, x = .volume name volume := by
  cases c with
  | list _ => exact absurd h (by simp [IsAbout, target])
  | read _ _ | isAutostart _ _ | listVolumes _ | readVolume _ _ => exact hx.elim
  | define _ _ =>
    cases h
    exact hx.imp_right fun h => h.imp_right .inl
  | undefine _ _ =>
    cases h
    exact hx
  | start _ _ | stop _ _ _ | isActive _ _ | setAutostart _ _ _ =>
    cases h
    exact hx.imp_right .inl
  | createVolume _ _ | deleteVolume _ _ | resizeVolume _ _ _ =>
    cases h
    rcases hx with hvolume | hentry
    · exact .inr (.inr (.inr ⟨rfl, _, hvolume⟩))
    · exact .inr (.inl hentry)

end Call

namespace Tables

variable {t u : Tables} {k l : DefinedKind} {name other : String} {r r' s s' : StoredResource} {x : Place}
  {polls : Table Int}

/-! ### Entries under a name -/

theorem volumesOf_put : (t.put k name r).volumesOf other =
    if k = .pool ∧ name = other then r.volumes else t.volumesOf other := by
  rw [volumesOf, get?_put]
  split
  · rfl
  · rfl

theorem volumesOf_erase : (t.erase k name).volumesOf other =
    if k = .pool ∧ name = other then [] else t.volumesOf other := by
  rw [volumesOf, get?_erase]
  split
  · rfl
  · rfl

theorem volumesOf_eq (h : t.get? .pool name = some r) : t.volumesOf name = r.volumes := by
  rw [volumesOf, h]
  rfl

theorem count_put : ((t.put k name r).table l).names.count other =
    if (t.get? k name).isSome then (t.table l).names.count other
    else (t.table l).names.count other + if k = l ∧ name = other then 1 else 0 := by
  by_cases hk : k = l
  · subst hk
    simp only [put, table_withTable, if_true, Table.count_names_put, true_and]
    rfl
  · simp [put, hk]

theorem count_erase : ((t.erase k name).table l).names.count other =
    if k = l ∧ name = other then 0 else (t.table l).names.count other := by
  by_cases hk : k = l
  · subst hk
    simp [erase, Table.count_names_erase]
  · simp [erase, hk]

/-- To put entries that are the same under a name leaves all places the same that were the same before. -/
theorem same_put_put (hthere : (t.get? k name).isSome = (u.get? k name).isSome) (hbare : r.bare k = s.bare k)
    (hvolumes : ∀ v, k = .pool → (Place.volume name v).Same t u →
      r.volumes.get? v = s.volumes.get? v ∧ r.volumes.names.count v = s.volumes.names.count v)
    (hentry : t.get? k name = u.get? k name → r = s) (h : x.Same t u) :
    x.Same (t.put k name r) (u.put k name s) := by
  -- under the name itself the entries are the same, and elsewhere nothing is put
  cases x with
  | resource l other =>
    rw [Place.Same, get?_put, get?_put]
    split
    · next heq =>
      obtain ⟨rfl, -⟩ := heq
      exact congrArg some hbare
    · exact h
  | volume pool v =>
    simp only [Place.Same, volumesOf_put]
    split
    · next heq =>
      obtain ⟨hpool, rfl⟩ := heq
      exact hvolumes v hpool h
    · exact h
  | listed l other => rw [Place.Same, count_put, count_put, hthere, show _ = _ from h]
  | entry l other =>
    simp only [Place.Same, get?_put]
    split
    · next heq =>
      obtain ⟨rfl, rfl⟩ := heq
      rw [hentry h]
    · exact h

/-- To put an entry under a name leaves a place the same if the entry has the same there as before. -/
theorem same_put (hresource : x = .resource k name → ∃ r, t.get? k name = some r ∧ r.bare k = s.bare k)
    (hvolume : ∀ v, x = .volume name v → k = .pool → (t.volumesOf name).get? v = s.volumes.get? v ∧
      (t.volumesOf name).names.count v = s.volumes.names.count v)
    (hlisted : x = .listed k name → (t.get? k name).isSome = true)
    (hentry : x ≠ .entry k name) : x.Same t (t.put k name s) := by
  -- only places under the name itself can differ
  cases x with
  | resource l other =>
    by_cases heq : k = l ∧ name = other
    · obtain ⟨rfl, rfl⟩ := heq
      obtain ⟨r, hr, hbare⟩ := hresource rfl
      rw [Place.Same, get?_put_self, hr]
      exact congrArg some hbare
    · rw [Place.Same, get?_put, if_neg heq]
  | volume pool v =>
    simp only [Place.Same, volumesOf_put]
    split
    · next heq =>
      obtain ⟨rfl, rfl⟩ := heq
      exact hvolume v rfl rfl
    · exact ⟨rfl, rfl⟩
  | listed l other =>
    rw [Place.Same, count_put]
    split
    · rfl
    · next hnone =>
      rw [if_neg]
      · rfl
      · rintro ⟨rfl, rfl⟩
        exact hnone (hlisted rfl)
  | entry l other =>
    refine (get?_put_of_ne ?_).symm
    rintro heq
    obtain ⟨rfl, rfl⟩ := Prod.mk.inj heq
    exact hentry rfl

theorem same_erase_erase (h : x.Same t u) : x.Same (t.erase k name) (u.erase k name) := by
  cases x with
  | resource l other =>
    rw [Place.Same, get?_erase, get?_erase]
    split
    · rfl
    · exact h
  | listed l other => rw [Place.Same, count_erase, count_erase, show _ = _ from h]
  | volume pool v =>
    simp only [Place.Same, volumesOf_erase]
    split
    · exact ⟨rfl, rfl⟩
    · exact h
  | entry l other =>
    simp only [Place.Same, get?_erase]
    split
    · rfl
    · exact h

/-- To take out an entry leaves all other places the same. -/
theorem same_erase (hresource : x ≠ .resource k name) (hvolume : ∀ v, x = .volume name v → k ≠ .pool)
    (hlisted : x ≠ .listed k name) (hentry : x ≠ .entry k name) : x.Same t (t.erase k name) := by
  cases x with
  | resource l other =>
    have hne : ¬ (k = l ∧ name = other) := fun ⟨hk, hn⟩ => hresource (by rw [hk, hn])
    rw [Place.Same, get?_erase, if_neg hne]
  | listed l other =>
    rw [Place.Same, count_erase, if_neg]
    rintro ⟨rfl, rfl⟩
    exact hlisted rfl
  | volume pool v =>
    have hne : ¬ (k = .pool ∧ name = pool) := fun ⟨hk, hn⟩ => hvolume v (by rw [hn]) hk
    rw [Place.Same, volumesOf_erase, if_neg hne]
    exact ⟨rfl, rfl⟩
  | entry l other =>
    have hne : ¬ (k = l ∧ name = other) := fun ⟨hk, hn⟩ => hentry (by rw [hk, hn])
    rw [Place.Same, get?_erase, if_neg hne]

/-! ### What a call does on hosts that are the same -/

theorem mergeSort_names_eq {xs ys : List String} (h : ∀ name, xs.count name = ys.count name) :
    (xs.mergeSort fun a b => decide (a ≤ b)) = ys.mergeSort fun a b => decide (a ≤ b) := by
  have hsorted : ∀ zs : List String,
      (zs.mergeSort fun a b => decide (a ≤ b)).Pairwise fun a b => decide (a ≤ b) = true :=
    List.pairwise_mergeSort (fun a b c hab hbc => by
      simpa using String.le_trans (by simpa using hab) (by simpa using hbc))
      fun a b => by simpa using String.le_total a b
  refine List.Perm.eq_of_pairwise (fun a b _ _ hab hba => ?_) (hsorted xs) (hsorted ys) ?_
  · exact String.le_antisymm (by simpa using hab) (by simpa using hba)
  · exact (List.mergeSort_perm xs _).trans ((List.perm_iff_count.2 h).trans (List.mergeSort_perm ys _).symm)

/-- What is under a name that is the same place. -/
theorem get?_of_same (h : (Place.resource k name).Same t u) :
    (t.get? k name = none ∧ u.get? k name = none) ∨
      ∃ r s, t.get? k name = some r ∧ u.get? k name = some s ∧ r.bare k = s.bare k := by
  have hbare : (t.get? k name).map (·.bare k) = (u.get? k name).map (·.bare k) := h
  cases ht : t.get? k name with
  | none =>
    rw [ht] at hbare
    exact .inl ⟨rfl, by simpa using hbare.symm⟩
  | some r =>
    cases hu : u.get? k name with
    | none =>
      rw [ht, hu] at hbare
      exact absurd hbare (by simp)
    | some s =>
      rw [ht, hu] at hbare
      exact .inr ⟨r, s, rfl, rfl, Option.some.inj hbare⟩

/-- What comes of a call on two hosts that are the same where it matters. -/
def ServesAlike (polls : Table Int) (t u : Tables) (c : Call) : Prop :=
  (∃ e, t.serve polls c = .error e ∧ u.serve polls c = .error e) ∨
    ∃ a t' u', t.serve polls c = .ok (a, t') ∧ u.serve polls c = .ok (a, u') ∧
      ∀ x : Place, x.Same t u → x.Same t' u'

/-- A call that refuses a name that is not there, and otherwise goes on with the entry. -/
theorem servesAlike_of_find {c : Call} {f : StoredResource → Except HostError (c.Answer × Tables)}
    {g : StoredResource → Except HostError (c.Answer × Tables)}
    (ht : t.serve polls c = (t.find k name >>= f)) (hu : u.serve polls c = (u.find k name >>= g))
    (h : (Place.resource k name).Same t u)
    (hgo : ∀ r s, t.get? k name = some r → u.get? k name = some s → r.bare k = s.bare k →
      (∃ e, f r = .error e ∧ g s = .error e) ∨ ∃ a t' u', f r = .ok (a, t') ∧ g s = .ok (a, u') ∧
        ∀ x : Place, x.Same t u → x.Same t' u') : ServesAlike polls t u c := by
  rcases get?_of_same h with ⟨hr, hs⟩ | ⟨r, s, hr, hs, hbare⟩
  · refine .inl ⟨missing k.title name, ?_, ?_⟩
    · rw [ht, find, hr]
      rfl
    · rw [hu, find, hs]
      rfl
  · rw [ServesAlike, ht, hu, find_eq_ok hr, find_eq_ok hs]
    exact hgo r s hr hs hbare

/-- A change of an entry that leaves its volumes alone and does the same to entries that are the same but for
their volumes. -/
theorem same_put_of_keeps {g : StoredResource → StoredResource} (hr : t.get? k name = some r)
    (hs : u.get? k name = some s) (hbare : (g r).bare k = (g s).bare k)
    (hvolumes : ∀ r, (g r).volumes = r.volumes) (h : x.Same t u) :
    x.Same (t.put k name (g r)) (u.put k name (g s)) := by
  refine same_put_put (by rw [hr, hs]; rfl) hbare (fun v hk hv => ?_) (fun heq => ?_) h
  · subst hk
    simpa only [Place.Same, volumesOf_eq hr, volumesOf_eq hs, hvolumes] using hv
  · rw [hr, hs] at heq
    rw [Option.some.inj heq]

/-- A change of a volume in an entry. -/
theorem same_put_volumes {x' y' : Table StoredVolume} (hr : t.get? .pool name = some r)
    (hs : u.get? .pool name = some s) (hbare : r.bare .pool = s.bare .pool)
    (hvolumes : ∀ v, (Place.volume name v).Same t u →
      Table.get? x' v = Table.get? y' v ∧ x'.names.count v = y'.names.count v)
    (hentry : r = s → x' = y') (h : x.Same t u) :
    x.Same (t.put .pool name { r with volumes := x' }) (u.put .pool name { s with volumes := y' }) := by
  refine same_put_put (by rw [hr, hs]; rfl) hbare (fun v _ hv => hvolumes v hv) (fun heq => ?_) h
  rw [hr, hs] at heq
  obtain rfl := Option.some.inj heq
  rw [hentry rfl]

/-- A call about a volume refuses a pool that is not there or not active, and otherwise goes on with the
pool. -/
theorem servesAlike_of_activePool {c : Call} {f : StoredResource → Except HostError (c.Answer × Tables)}
    {g : StoredResource → Except HostError (c.Answer × Tables)}
    (ht : t.serve polls c = (t.activePool name >>= f)) (hu : u.serve polls c = (u.activePool name >>= g))
    (h : (Place.resource .pool name).Same t u)
    (hgo : ∀ r s, t.get? .pool name = some r → u.get? .pool name = some s → r.bare .pool = s.bare .pool →
      (∃ e, f r = .error e ∧ g s = .error e) ∨ ∃ a t' u', f r = .ok (a, t') ∧ g s = .ok (a, u') ∧
        ∀ x : Place, x.Same t u → x.Same t' u') : ServesAlike polls t u c := by
  refine servesAlike_of_find (f := fun r => (if r.active then pure r else
      throw { kind := .operation, message := "storage pool '" ++ name ++ "' is not active" }) >>= f)
    (g := fun r => (if r.active then pure r else
      throw { kind := .operation, message := "storage pool '" ++ name ++ "' is not active" }) >>= g)
    (by rw [ht, activePool, bind_assoc]) (by rw [hu, activePool, bind_assoc]) h fun r s hr hs hbare => ?_
  have hactive : r.active = s.active := by simpa using congrArg StoredResource.active hbare
  simp only [hactive]
  split
  · exact hgo r s hr hs hbare
  · exact .inl ⟨_, rfl, rfl⟩

/-- **On hosts that are the same where a call reads, it has the same answer**, and leaves every place the same
that was the same before. -/
theorem serve_of_same {c : Call} (h : ∀ x, c.Reads x → x.Same t u) : ServesAlike polls t u c := by
  have hok : ∀ (a : c.Answer), t.serve polls c = .ok (a, t) → u.serve polls c = .ok (a, u) →
      ServesAlike polls t u c := fun a ht hu => .inr ⟨a, t, u, ht, hu, fun _ => id⟩
  -- in each case the resource that is found is the same but for its volumes, which are places of their own
  cases c with
  | list l =>
    refine hok _ rfl ?_
    have hnames : t.sortedNames l = u.sortedNames l := mergeSort_names_eq fun name => h _ ⟨name, rfl⟩
    rw [hnames]
    rfl
  | read l n =>
    refine servesAlike_of_find rfl rfl (h _ rfl) fun r s hr hs hbare => .inr ⟨r.document, t, u, rfl, ?_, fun _ => id⟩
    have hdocument : r.document = s.document := by simpa using congrArg StoredResource.document hbare
    rw [hdocument]
    rfl
  | define l document =>
    refine .inr ⟨(), _, _, rfl, rfl, fun x hx => ?_⟩
    rcases get?_of_same (h _ rfl) with ⟨hr, hs⟩ | ⟨r, s, hr, hs, hbare⟩
    · rw [define, define, hr, hs]
      exact same_put_put (by rw [hr, hs]) rfl (fun _ _ _ => ⟨rfl, rfl⟩) (fun _ => rfl) hx
    · rw [define, define, hr, hs]
      refine same_put_of_keeps (g := fun r => { r with document }) hr hs ?_ (fun _ => rfl) hx
      cases l with
      | network | pool | domain => exact congrArg (fun r => { r with document }) hbare
  | undefine l n =>
    exact servesAlike_of_find rfl rfl (h _ rfl) fun r s _ _ _ =>
      .inr ⟨(), _, _, rfl, rfl, fun x hx => same_erase_erase hx⟩
  | start l n =>
    refine servesAlike_of_find rfl rfl (h _ rfl) fun r s hr hs hbare =>
      .inr ⟨(), _, _, rfl, rfl, fun x hx => same_put_of_keeps hr hs ?_ (fun _ => rfl) hx⟩
    rw [StoredResource.bare_started, StoredResource.bare_started, hbare]
  | stop l n force =>
    refine servesAlike_of_find rfl rfl (h _ rfl) fun r s hr hs hbare => .inr ⟨(), _, _, rfl, rfl, fun x hx => ?_⟩
    have hstopped : x.Same (t.put l n r.stopped) (u.put l n s.stopped) := by
      refine same_put_of_keeps hr hs ?_ (fun _ => rfl) hx
      rw [StoredResource.bare_stopped, StoredResource.bare_stopped, hbare]
    cases l with
    | network => exact hstopped
    | pool => exact hstopped
    | domain =>
      cases force with
      | true => exact hstopped
      | false =>
        refine same_put_of_keeps (g := (·.asked ((polls.get? n).getD 0))) hr hs ?_
          (fun r => r.volumes_asked _) hx
        simp only [StoredResource.bare_asked, hbare]
  | isActive l n =>
    refine servesAlike_of_find rfl rfl (h _ rfl) fun r s hr hs hbare =>
      .inr ⟨r.seen.active, _, _, rfl, ?_, fun x hx => same_put_of_keeps hr hs ?_ (fun r => r.volumes_seen) hx⟩
    · have hactive : r.seen.active = s.seen.active := by
        have hseen : (r.bare l).seen = (s.bare l).seen := by rw [hbare]
        rw [← StoredResource.bare_seen, ← StoredResource.bare_seen] at hseen
        simpa using congrArg StoredResource.active hseen
      rw [hactive]
      rfl
    · rw [StoredResource.bare_seen, StoredResource.bare_seen, hbare]
  | isAutostart l n =>
    refine servesAlike_of_find rfl rfl (h _ rfl) fun r s hr hs hbare => .inr ⟨r.autostart, t, u, rfl, ?_, fun _ => id⟩
    have hautostart : r.autostart = s.autostart := by simpa using congrArg StoredResource.autostart hbare
    rw [hautostart]
    rfl
  | setAutostart l n autostart =>
    refine servesAlike_of_find rfl rfl (h _ rfl) fun r s hr hs hbare => .inr ⟨(), _, _, rfl, rfl, fun x hx => ?_⟩
    refine same_put_of_keeps (g := fun r => { r with autostart }) hr hs ?_ (fun _ => rfl) hx
    cases l with
    | network | pool | domain => exact congrArg (fun r => { r with autostart }) hbare
  | listVolumes pool =>
    refine servesAlike_of_activePool rfl rfl (h _ (.inl rfl)) fun r s hr hs hbare =>
      .inr ⟨_, t, u, rfl, ?_, fun _ => id⟩
    -- names are shown in order, so it is enough that each volume is there as often
    have hnames : (r.volumes.names.mergeSort fun a b => decide (a ≤ b)) =
        s.volumes.names.mergeSort fun a b => decide (a ≤ b) := by
      refine mergeSort_names_eq fun v => ?_
      have hcount := (h (.volume pool v) (.inr ⟨v, rfl⟩)).2
      rwa [volumesOf_eq hr, volumesOf_eq hs] at hcount
    rw [hnames]
    rfl
  | readVolume pool n =>
    refine servesAlike_of_activePool rfl rfl (h _ (.inl rfl)) fun r s hr hs hbare => ?_
    have hvolume := (h (.volume pool n) (.inr rfl)).1
    rw [volumesOf_eq hr, volumesOf_eq hs] at hvolume
    simp only [findVolume, hvolume]
    cases s.volumes.get? n with
    | none => exact .inl ⟨_, rfl, rfl⟩
    | some v => exact .inr ⟨_, t, u, rfl, rfl, fun _ => id⟩
  | createVolume pool document =>
    refine servesAlike_of_activePool rfl rfl (h _ (.inl rfl)) fun r s hr hs hbare => ?_
    have hvolume := (h (.volume pool (nameInDocument document)) (.inr rfl)).1
    rw [volumesOf_eq hr, volumesOf_eq hs] at hvolume
    cases he : Element.read? document with
    | none => exact .inl ⟨_, rfl, rfl⟩
    | some e =>
      refine .inr ⟨(), _, _, rfl, rfl, fun x hx => ?_⟩
      have hnamed : (e.resourceName?).getD "" = nameInDocument document := by
        rw [nameInDocument, he]
        rfl
      refine same_put_volumes hr hs hbare (fun v hv => ?_) (fun heq => by rw [heq]) hx
      rw [hnamed]
      rw [Place.Same, volumesOf_eq hr, volumesOf_eq hs] at hv
      exact Table.same_put hvolume hv _
  | deleteVolume pool n =>
    refine servesAlike_of_activePool rfl rfl (h _ (.inl rfl)) fun r s hr hs hbare => ?_
    have hvolume := (h (.volume pool n) (.inr rfl)).1
    rw [volumesOf_eq hr, volumesOf_eq hs] at hvolume
    simp only [findVolume, hvolume]
    cases s.volumes.get? n with
    | none => exact .inl ⟨_, rfl, rfl⟩
    | some v =>
      refine .inr ⟨(), _, _, rfl, rfl, fun x hx => ?_⟩
      refine same_put_volumes hr hs hbare (fun v hv => ?_) (fun heq => by rw [heq]) hx
      rw [Place.Same, volumesOf_eq hr, volumesOf_eq hs] at hv
      rw [Table.get?_erase, Table.get?_erase, Table.count_names_erase, Table.count_names_erase, hv.1, hv.2]
      exact ⟨rfl, rfl⟩
  | resizeVolume pool n bytes =>
    refine servesAlike_of_activePool rfl rfl (h _ (.inl rfl)) fun r s hr hs hbare => ?_
    have hvolume := (h (.volume pool n) (.inr rfl)).1
    rw [volumesOf_eq hr, volumesOf_eq hs] at hvolume
    simp only [findVolume, hvolume]
    cases s.volumes.get? n with
    | none => exact .inl ⟨_, rfl, rfl⟩
    | some v =>
      refine .inr ⟨(), _, _, rfl, rfl, fun x hx => ?_⟩
      refine same_put_volumes hr hs hbare (fun v hv => ?_) (fun heq => by rw [heq]) hx
      rw [Place.Same, volumesOf_eq hr, volumesOf_eq hs] at hv
      exact Table.same_put hvolume hv _

/-- **A call leaves every place as it is that it does not write.** -/
theorem same_serve {c : Call} {a : c.Answer} (hs : t.serve polls c = .ok (a, u)) (hx : ¬ c.Writes x) :
    x.Same t u := by
  -- an entry is put in place of one with the same volumes
  have hkeeps : ∀ {l n r r'}, t.get? l n = some r → r'.volumes = r.volumes →
      ¬ (x = .resource l n ∨ x = .entry l n) → x.Same t (t.put l n r') := by
    intro l n r r' hr hvolumes hnot
    refine same_put (fun h => absurd (.inl h) hnot) (fun v _ hl => ?_) (fun _ => by rw [hr]; rfl)
      fun h => hnot (.inr h)
    subst hl
    rw [volumesOf_eq hr, hvolumes]
    exact ⟨rfl, rfl⟩
  -- an entry of a pool is put in place of one that differs in one volume
  have hwithin : ∀ {n v r volumes}, t.get? .pool n = some r →
      (∀ other, v ≠ other → r.volumes.get? other = Table.get? volumes other ∧
        r.volumes.names.count other = volumes.names.count other) →
      ¬ (x = .volume n v ∨ x = .entry .pool n) → x.Same t (t.put .pool n { r with volumes }) := by
    intro n v r volumes hr hothers hnot
    refine same_put (fun _ => ⟨r, hr, rfl⟩) (fun other h _ => ?_) (fun _ => by rw [hr]; rfl)
      fun h => hnot (.inr h)
    rw [volumesOf_eq hr]
    refine hothers other fun heq => hnot (.inl ?_)
    rw [h, heq]
  cases becomes_of_serve hs with
  | still _ => exact .refl x t
  | define l document =>
    cases hr : t.get? l (nameInDocument document) with
    | none =>
      rw [define, hr]
      refine same_put (fun h => absurd (.inl h) hx) (fun v _ hl => ?_) (fun h => absurd (.inr (.inr h)) hx)
        fun h => hx (.inr (.inl h))
      subst hl
      rw [volumesOf, hr]
      exact ⟨rfl, rfl⟩
    | some r =>
      rw [define, hr]
      exact hkeeps hr rfl fun h => hx (h.imp_right .inl)
  | undefine l n =>
    exact same_erase (fun h => hx (.inl h)) (fun v h hl => hx (.inr (.inr (.inr ⟨hl, v, h⟩))))
      (fun h => hx (.inr (.inr (.inl h)))) fun h => hx (.inr (.inl h))
  | start hr => exact hkeeps hr rfl hx
  | stop hr _ => exact hkeeps hr rfl hx
  | ask hr => exact hkeeps hr (StoredResource.volumes_asked _ _) hx
  | look hr => exact hkeeps hr (StoredResource.volumes_seen _) hx
  | autostart hr _ => exact hkeeps hr rfl hx
  | create hr _ =>
    refine hwithin hr (fun other hne => ?_) hx
    rw [Table.get?_put, if_neg hne, Table.count_names_put, if_neg hne]
    simp
  | delete hr =>
    refine hwithin hr (fun other hne => ?_) hx
    rw [Table.get?_erase, if_neg hne, Table.count_names_erase, if_neg hne]
    exact ⟨rfl, rfl⟩
  | resize hr _ =>
    refine hwithin hr (fun other hne => ?_) hx
    rw [Table.get?_put, if_neg hne, Table.count_names_put, if_neg hne]
    simp

end Tables

end VirtualTopology
