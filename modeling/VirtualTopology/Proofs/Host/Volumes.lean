import VirtualTopology.Proofs.Pass.Work

/-!
# Calls about volumes

A call that goes to a volume (`Call.IsWithin`) changes nothing in the entry of its pool but that volume
(`StoredResource.AgreeBut`), and so does a dialogue of such calls (`Memory.run_isWithin`). In an active
pool each of them is admitted.
-/

namespace VirtualTopology

/-! ### Tables with something or nothing under a name -/

namespace Table

variable {α : Type} {t : Table α} {name : String}

/-- Put an entry under a name, or take out what is there. -/
def assign (t : Table α) (name : String) : Option α → Table α
  | some a => t.put name a
  | none => t.erase name

theorem erase_self (h : t.get? name = none) : t.erase name = t := by
  induction t with
  | nil => rfl
  | cons e t ih =>
    rw [get?_cons] at h
    split at h
    · exact absurd h (by simp)
    · next hne => rw [erase_cons, if_neg hne, ih h]

/-- To assign what is there already changes nothing. -/
theorem assign_self (t : Table α) (name : String) : t.assign name (t.get? name) = t := by
  cases h : t.get? name with
  | none => exact erase_self h
  | some a => exact put_self h

theorem get?_assign (t : Table α) (name other : String) (o : Option α) :
    (t.assign name o).get? other = if name = other then o else t.get? other := by
  cases o with
  | none => exact get?_erase t name other
  | some a => exact get?_put t name other a

end Table

/-! ### What stays as it is -/

/-- Whether a call goes to a volume of a pool. -/
inductive Call.IsWithin (pool volume : String) : Call → Prop where
  | read : IsWithin pool volume (.readVolume pool volume)
  | create {document : String} (name : nameInDocument document = volume) :
      IsWithin pool volume (.createVolume pool document)
  | delete : IsWithin pool volume (.deleteVolume pool volume)
  | resize (bytes : Int) : IsWithin pool volume (.resizeVolume pool volume bytes)

theorem Call.IsWithin.about {pool volume : String} {c : Call} (h : c.IsWithin pool volume) :
    c.IsAbout .pool pool := by
  cases h <;> rfl

/-- Entries of a pool that agree in everything but some of its volumes. -/
structure StoredResource.AgreeBut (volumes : List String) (r r' : StoredResource) : Prop where
  rest : r' = { r with volumes := r'.volumes }
  others : ∀ other, other ∉ volumes → r'.volumes.get? other = r.volumes.get? other

namespace StoredResource.AgreeBut

variable {vs : List String} {r r' r'' : StoredResource}

theorem refl (vs : List String) (r : StoredResource) : r.AgreeBut vs r := ⟨rfl, fun _ _ => rfl⟩

theorem trans (h : r.AgreeBut vs r') (h' : r'.AgreeBut vs r'') : r.AgreeBut vs r'' :=
  ⟨by rw [h'.rest, h.rest], fun other hne => (h'.others other hne).trans (h.others other hne)⟩

theorem mono {ws : List String} (h : r.AgreeBut vs r') (hsub : ∀ v ∈ vs, v ∈ ws) : r.AgreeBut ws r' :=
  ⟨h.rest, fun other hne => h.others other fun hv => hne (hsub other hv)⟩

theorem put (volume : String) (r : StoredResource) (v : StoredVolume) :
    r.AgreeBut [volume] { r with volumes := r.volumes.put volume v } :=
  ⟨rfl, fun other hne => by rw [Table.get?_put, if_neg fun he => hne (by simp [he])]⟩

theorem erase (volume : String) (r : StoredResource) :
    r.AgreeBut [volume] { r with volumes := r.volumes.erase volume } :=
  ⟨rfl, fun other hne => by rw [Table.get?_erase, if_neg fun he => hne (by simp [he])]⟩

theorem active (h : r.AgreeBut vs r') : r'.active = r.active := by rw [h.rest]

end StoredResource.AgreeBut

namespace Tables

variable {t u : Tables} {polls : Table Int} {pool volume : String} {r : StoredResource} {c : Call}
  {a : c.Answer}

/-- **A call about a volume changes nothing in its pool but the volume.** -/
theorem serve_isWithin (hs : t.serve polls c = .ok (a, u)) (hc : c.IsWithin pool volume)
    (hr : t.get? .pool pool = some r) :
    ∃ r', u.get? .pool pool = some r' ∧ r.AgreeBut [volume] r' := by
  -- a call that does not only read finds the pool and puts it back with one of its volumes changed
  cases hc with
  | read =>
    rw [eq_of_isStill hs rfl]
    exact ⟨r, hr, .refl [volume] r⟩
  | @create document hname =>
    obtain ⟨s, hpool, h⟩ := exists_of_bind_eq_ok hs
    obtain rfl : s = r := Option.some.inj ((get?_of_activePool hpool).1.symm.trans hr)
    split at h
    · exact absurd h (by simp [throw, throwThe, MonadExceptOf.throw])
    · next e he =>
      obtain ⟨-, rfl⟩ := Prod.mk.inj (Except.ok.inj h)
      have hnamed : (e.resourceName?).getD "" = volume := by
        rw [← hname, nameInDocument, he]
        rfl
      rw [hnamed]
      exact ⟨_, get?_put_self, .put volume s _⟩
  | delete =>
    obtain ⟨s, hpool, h⟩ := exists_of_bind_eq_ok hs
    obtain rfl : s = r := Option.some.inj ((get?_of_activePool hpool).1.symm.trans hr)
    obtain ⟨v, -, h⟩ := exists_of_bind_eq_ok h
    obtain ⟨-, rfl⟩ := Prod.mk.inj (Except.ok.inj h)
    exact ⟨_, get?_put_self, .erase volume s⟩
  | resize bytes =>
    obtain ⟨s, hpool, h⟩ := exists_of_bind_eq_ok hs
    obtain rfl : s = r := Option.some.inj ((get?_of_activePool hpool).1.symm.trans hr)
    obtain ⟨v, -, h⟩ := exists_of_bind_eq_ok h
    obtain ⟨-, rfl⟩ := Prod.mk.inj (Except.ok.inj h)
    exact ⟨_, get?_put_self, .put volume s _⟩

end Tables

/-- A query about a volume changes nothing in its pool but the volume. -/
theorem Memory.exists_agreeBut_answer {m : Memory} {pool volume : String} {r : StoredResource} {q : Query}
    (hr : m.tables.get? .pool pool = some r) (hq : q.CallsOnly (Call.IsWithin pool volume)) :
    ∃ r', (m.answer q).2.tables.get? .pool pool = some r' ∧ r.AgreeBut [volume] r' := by
  cases q with
  | call c =>
    show ∃ r', (m.call c).2.tables.get? .pool pool = some r' ∧ r.AgreeBut [volume] r'
    rcases tables_call m c with heq | ⟨a, ha⟩
    · rw [heq]
      exact ⟨r, hr, .refl [volume] r⟩
    · exact Tables.serve_isWithin ha hq hr
  | cancelled => exact ⟨r, hr, .refl [volume] r⟩
  | now => exact ⟨r, hr, .refl [volume] r⟩
  | sleep _ => exact ⟨r, hr, .refl [volume] r⟩

/-- **A dialogue about a volume changes nothing in its pool but the volume.** -/
theorem Memory.run_isWithin {α : Type} {d : Talk α} {e : α → Prop} {pool volume : String}
    (h : d.Confined (Query.CallsOnly (Call.IsWithin pool volume)) e) {m : Memory} {r : StoredResource}
    (hr : m.tables.get? .pool pool = some r) :
    ∃ r', (m.run d).2.tables.get? .pool pool = some r' ∧ r.AgreeBut [volume] r' := by
  refine run_invariant h
    (I := fun s => ∃ r', s.tables.get? .pool pool = some r' ∧ r.AgreeBut [volume] r') ?_
    ⟨r, hr, .refl [volume] r⟩
  rintro s q hq ⟨r', hr', hagree⟩
  obtain ⟨r'', hr'', hagree'⟩ := exists_agreeBut_answer hr' hq
  exact ⟨r'', hr'', hagree.trans hagree'⟩

/-! ### What an active pool admits -/

namespace Work

variable {polls : Table Int} {pool name : String} {r : StoredResource} {v : StoredVolume}
  (hactive : r.active = true)

include hactive

theorem admits_listVolumes :
    Admits polls .pool pool r (.listVolumes pool)
      (r.volumes.names.mergeSort fun a b => decide (a ≤ b)) r := by
  intro t ht
  rw [Tables.put_self ht, Tables.serve, Tables.activePool_eq_ok ht hactive]
  rfl

theorem admits_readVolume (hv : r.volumes.get? name = some v) :
    Admits polls .pool pool r (.readVolume pool name) v.document r := by
  intro t ht
  rw [Tables.put_self ht, Tables.serve, Tables.activePool_eq_ok ht hactive]
  simp [bind, Except.bind, Tables.findVolume, hv, pure, Except.pure]

theorem admits_createVolume {document : String} {e : Element}
    (hread : Element.read? document = some e) (hname : nameInDocument document = name) :
    Admits polls .pool pool r (.createVolume pool document) ()
      { r with volumes := r.volumes.put name (.ofDocument e) } := by
  intro t ht
  have hnamed : (e.resourceName?).getD "" = name := by
    rw [← hname, nameInDocument, hread]
    rfl
  rw [Tables.serve, Tables.activePool_eq_ok ht hactive]
  simp [bind, Except.bind, hread, hnamed, Tables.putVolume, pure, Except.pure]

theorem admits_deleteVolume (hv : r.volumes.get? name = some v) :
    Admits polls .pool pool r (.deleteVolume pool name) ()
      { r with volumes := r.volumes.erase name } := by
  intro t ht
  rw [Tables.serve, Tables.activePool_eq_ok ht hactive]
  simp [bind, Except.bind, Tables.findVolume, hv, pure, Except.pure]

theorem admits_resizeVolume (hv : r.volumes.get? name = some v) (bytes : Int) :
    Admits polls .pool pool r (.resizeVolume pool name bytes) ()
      { r with volumes := r.volumes.put name (v.resized bytes) } := by
  intro t ht
  rw [Tables.serve, Tables.activePool_eq_ok ht hactive]
  simp [bind, Except.bind, Tables.findVolume, hv, Tables.putVolume, pure, Except.pure]

end Work

end VirtualTopology
