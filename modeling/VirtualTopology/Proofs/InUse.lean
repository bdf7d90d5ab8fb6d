import VirtualTopology.Proofs.Pass.Endings
import VirtualTopology.Proofs.Pass.Watch
import VirtualTopology.Proofs.Preview

/-!
# What is in use stays

A pass undefines a network or a pool only if the documents of all domains on the host can be read at that moment
and none of them refers to it (`Tables.IsFree`). If the last look at one of these documents failed, or found a
document that cannot be read, then the pass undefines no network and no pool at all. Both hold of every desired
state and every host, whatever fails and whenever the pass is cancelled
(`Settings.undefines_only_free`).

Before a pass removes networks and pools, it looks at the documents of all domains, and it leaves out those that
it has removed itself. It knows them by their results. So the proof has three parts: a result of a declared
domain never says that a domain was removed (`Desired.confined_kept`); if a result says so, the domain is gone
(`Tables.LacksRemoved`); and what is read of the domains that remain stays true while networks and pools are
removed (`Watched.Refer`).
-/

namespace VirtualTopology

open Dialogue

/-! ### Networks and pools that are not in use -/

/-- Whether no domain uses a resource: the documents of all domains can be read, and none refers to it. -/
def Tables.IsFree (t : Tables) (k : DefinedKind) (name : String) : Prop :=
  ∀ domain r, t.get? .domain domain = some r →
    ∃ e, Element.read? r.document = some e ∧ (References.of domain e).uses k name = false

/-- Whether a call does not undefine a network or a pool that is in use. -/
def Call.SparesUsed (m : Memory) (c : Call) : Prop :=
  ∀ k name, k ≠ .domain → c = .undefine k name → m.tables.IsFree k name

/-- Whether a call undefines no network and no pool. -/
def Call.KeepsRest (c : Call) : Prop := ∀ k name, c = .undefine k name → k = .domain

theorem Call.KeepsRest.sparesUsed {c : Call} (h : c.KeepsRest) (m : Memory) : c.SparesUsed m :=
  fun k name hk hc => absurd (h k name hc) hk

/-! ### What results say about domains -/

/-- Whether a result says that a domain was removed. -/
def Result.IsRemoval (x : Result) : Prop := x.kind = .domain ∧ x.outcome = .deleted

namespace Domain

theorem finalOutcome_ne_deleted {outcome : Outcome} (h : outcome ≠ .deleted) (details : List String) :
    finalOutcome outcome details ≠ .deleted := by
  unfold finalOutcome
  split
  · simp
  · exact h

/-- Work that brings a domain in line does not remove it. -/
theorem comesTo_sync (x : Domain) (dry : Bool) (timeout : Binary64) (exists_ : Bool) :
    Work.ComesTo (fun y => y.outcome ≠ .deleted) (fun _ => True) (x.sync dry timeout exists_) := by
  have hstore : Work.ComesTo (fun a => a.1 ≠ .deleted) (fun _ => True) (x.store dry exists_) := by
    unfold store
    refine .seq (Work.comesTo_true _) fun text => ?_
    split
    · refine .seq (Work.comesTo_true _) fun stored => ?_
      split
      · exact .pure (by simp)
      · exact .seq (Work.comesTo_true _) fun _ => .pure (by simp)
    · exact .seq (Work.comesTo_true _) fun _ => .pure (by simp)
  rw [sync_eq]
  refine hstore.bind fun a ha => ?_
  unfold finish
  dsimp only
  split
  · exact .seq (Work.comesTo_true _) fun running => .seq (Work.comesTo_true _) fun said =>
      .pure (by exact finalOutcome_ne_deleted ha _)
  · exact .seq (Work.comesTo_true _) fun running => .seq (Work.comesTo_true _) fun said =>
      .pure (by exact finalOutcome_ne_deleted ha _)

/-- A result of a declared domain does not say that it was removed. -/
theorem confined_kept (x : Domain) (dry : Bool) (timeout : Binary64) (before : List Result) (exists_ : Bool) :
    (x.task dry timeout before exists_).Confined (fun _ => True) (Recorded.All fun y => ¬ y.IsRemoval) := by
  unfold task
  dsimp only
  split
  · refine ((x.comesTo_sync dry timeout exists_).confined_recorded (by simp [Result.stuck, Result.failure])
      (by simp [Result.cancelled])).mono (fun _ => id) fun _ h => h.mono fun y hy hremoval => hy hremoval.2
  · exact Confined.pure ((Recorded.all_ok_iff _).2 (by simp [Result.stuck, Result.failure, Result.IsRemoval]))

end Domain

/-- The tasks for declared resources give no removals of domains if none of them does. -/
theorem Stock.confined_tasks_kept {α : Type} {kind : DefinedKind} {declared : List α} {name : α → String}
    {lost : α → List Result} {task : α → Bool → Talk Recorded} {p : Query → Prop} {s : Stock}
    (hs : ∀ results, s = .leftAlone results → ∀ x ∈ results, x.outcome = .skippedUnmanaged)
    (htask : ∀ a ∈ declared, ∀ b, (task a b).Confined p (Recorded.All fun x => ¬ x.IsRemoval))
    (hlost : ∀ a ∈ declared, ∀ x ∈ lost a, ¬ x.IsRemoval) :
    ∀ t ∈ s.tasks kind declared name lost task, t.Confined p (Recorded.All fun x => ¬ x.IsRemoval) := by
  refine Stock.confined_each (fun results hleft x hx hremoval => ?_) (fun _ _ => htask) (fun a _ reason => ?_) hlost
  · exact absurd ((hs results hleft x hx).symm.trans hremoval.2) (by simp)
  · simp [Result.stuck, Result.failure, Result.IsRemoval]

theorem Started.Makes.keepsRest {s : Started} {dry : Bool} {c : Call} (h : s.Makes dry c) : c.KeepsRest := by
  cases h with
  | look _ reads =>
    rintro k name rfl
    exact absurd reads (by simp [Call.isReading])
  | define _ _ => simp [Call.KeepsRest]
  | stop _ => simp [Call.KeepsRest]
  | start _ => simp [Call.KeepsRest]
  | autostart _ => simp [Call.KeepsRest]

theorem VolumeEntry.Makes.keepsRest {e : VolumeEntry} {dry : Bool} {pool : String} {c : Call}
    (h : e.Makes dry pool c) : c.KeepsRest := by
  cases h <;> simp [Call.KeepsRest]

theorem Pool.Makes.keepsRest {q : Pool} {dry : Bool} {c : Call} (h : q.Makes dry c) : c.KeepsRest := by
  cases h with
  | started makes => exact makes.keepsRest
  | volumes => simp [Call.KeepsRest]
  | volume _ makes => exact makes.keepsRest

theorem Domain.Makes.keepsRest {x : Domain} {c : Call} (h : x.Makes c) : c.KeepsRest := by
  cases h with
  | look _ reads =>
    rintro k name rfl
    exact absurd reads (by simp [Call.isReading])
  | define _ => simp [Call.KeepsRest]
  | start => simp [Call.KeepsRest]
  | stop _ _ => simp [Call.KeepsRest]

namespace Desired

variable {d : Desired} {dry : Bool} {timeout : Binary64}

/-- To list a kind undefines nothing. -/
theorem keepsRest_of_list {k : DefinedKind} {q : Query} (h : q.CallsOnly (· = .list k)) :
    q.CallsOnly Call.KeepsRest :=
  h.mono fun c hc => by
    rintro l name rfl
    exact nomatch hc

/-- Bringing networks and pools in line undefines none of them, and its results are about no domain. -/
theorem confined_kept_first (d : Desired) (dry : Bool) :
    (d.networksAndPools dry).Confined (Query.CallsOnly Call.KeepsRest) fun x =>
      x.1.All fun y => ¬ y.IsRemoval := by
  refine ((Stock.confined_take .network _).mono (fun _ => keepsRest_of_list) fun _ => id).bind
    fun networks hnetworks => ?_
  refine ((Stock.confined_take .pool _).mono (fun _ => keepsRest_of_list) fun _ => id).bind fun pools hpools => ?_
  refine (Confined.gather fun t ht => ?_).bind fun results hresults => Confined.pure hresults
  rcases List.mem_append.1 ht with ht | ht
  · refine Stock.confined_tasks_kept hnetworks (fun n _ b => ?_) (fun _ _ x hx => absurd hx (by simp)) t ht
    refine (n.confined_makes dry b).mono (fun _ hq => hq.mono fun _ hc => hc.keepsRest) fun _ h => h.mono ?_
    exact fun x hx hremoval => absurd (hx.1.symm.trans hremoval.1) (by simp)
  · refine Stock.confined_tasks_kept hpools (fun q _ b => ?_) (fun q _ x hx hremoval => ?_) t ht
    · refine (q.confined_makes dry b).mono (fun _ hq => hq.mono fun _ hc => hc.keepsRest) fun _ h => h.mono ?_
      rintro x (hx | hx) hremoval
      · exact absurd (hx.1.symm.trans hremoval.1) (by simp)
      · exact absurd (hx.1.symm.trans hremoval.1) (by simp)
    · obtain ⟨e, he, rfl⟩ := List.mem_map.1 hx
      exact nomatch hremoval.1

/-- **A result of a declared domain does not say that it was removed**, and bringing domains in line undefines no
network and no pool. -/
theorem confined_kept (d : Desired) (dry : Bool) (timeout : Binary64) (before : List Result) :
    (d.domainsInLine dry timeout before).Confined (Query.CallsOnly Call.KeepsRest) fun x =>
      x.1.All fun y => ¬ y.IsRemoval := by
  refine ((Stock.confined_take .domain _).mono (fun _ => keepsRest_of_list) fun _ => id).bind
    fun domains hdomains => ?_
  refine (Confined.gather (Stock.confined_tasks_kept hdomains (fun x _ b => ?_)
    fun _ _ x hx => absurd hx (by simp))).bind fun results hresults => Confined.pure hresults
  refine ((x.confined_makes dry timeout before b).and (x.confined_kept dry timeout before b)).mono
    (fun _ hq => hq.1.mono fun _ hc => hc.keepsRest) fun _ h => h.2

end Desired

/-! ### Domains that have been removed -/

/-- Whether domains that are gone according to some results are gone. -/
def Tables.LacksRemoved (t : Tables) (results : List Result) : Prop :=
  ∀ x ∈ results, x.IsRemoval → t.get? .domain x.name = none

theorem Tables.LacksRemoved.append {t : Tables} {xs ys : List Result} (h : t.LacksRemoved xs)
    (h' : t.LacksRemoved ys) : t.LacksRemoved (xs ++ ys) :=
  List.forall_mem_append.2 ⟨h, h'⟩

theorem Tables.LacksRemoved.of_kept {xs : List Result} (h : ∀ x ∈ xs, ¬ x.IsRemoval) (t : Tables) :
    t.LacksRemoved xs := fun x hx hremoval => absurd hremoval (h x hx)

/-- A domain that counts as removed is gone. -/
theorem Tables.LacksRemoved.get?_eq_none {t : Tables} {results : List Result} (h : t.LacksRemoved results)
    {domain : String} (hremoved : Removal.wasRemoved results domain = true) : t.get? .domain domain = none := by
  unfold Removal.wasRemoved at hremoved
  cases hfind : results.find? fun r => r.kind == .domain && r.name == domain with
  | none =>
    rw [hfind] at hremoved
    exact absurd hremoved (by decide)
  | some x =>
    rw [hfind] at hremoved
    have hsame := List.find?_some hfind
    simp only [Bool.and_eq_true, beq_iff_eq] at hsame
    rw [← hsame.2]
    refine h x (List.mem_of_find?_eq_some hfind) ⟨hsame.1, ?_⟩
    simpa using hremoved

/-- **A domain that is removed is gone afterwards**, if its result says so, and others that were gone before are
still gone. -/
theorem Domain.safe_removal {name : String} {w : Watched} {gone : List Result}
    (hgone : w.host.tables.LacksRemoved gone) :
    Talk.Safe Call.SparesUsed (fun r w => ∀ rs, r = .ok rs → w.host.tables.LacksRemoved (gone ++ rs))
      (Domain.removal false name) w := by
  -- no call of a removal defines a domain, so what is gone stays gone
  have hkept : ∀ {w : Watched} {q : Query}, w.host.tables.LacksRemoved gone →
      q.CallsOnly (fun c => ∀ document, c ≠ .define .domain document) →
      (w.after q).host.tables.LacksRemoved gone := fun hw hq x hx hremoval =>
    Memory.get?_answer_eq_none (hw x hx hremoval) (hq.mono fun c hc document he => absurd he (hc document))
  have hone : ∀ {t : Tables} {x : Result}, t.LacksRemoved gone → ¬ x.IsRemoval →
      ∀ rs, (.ok [x] : Recorded) = .ok rs → t.LacksRemoved (gone ++ rs) := by
    intro t x ht hx rs hrs
    obtain rfl := Except.ok.inj hrs
    exact ht.append (.of_kept (by simpa using hx) t)
  rw [removal_eq]
  refine Talk.Safe.bind (Talk.Safe.supervise (Q := fun ending w => ∀ rs, ending.recorded = .ok rs →
    w.host.tables.LacksRemoved (gone ++ rs)) ?_ ?_) fun _ _ h => .pure h
  · exact hone (hkept (q := .cancelled) hgone trivial) fun hremoval => absurd hremoval.2 (by simp [Result.cancelled])
  · have hstuck : ∀ {t : Tables} {x : Trouble}, t.LacksRemoved gone → ∀ rs,
        (Ending.of .domain name (.error x) : Ending Result).recorded = .ok rs → t.LacksRemoved (gone ++ rs) := by
      intro t x ht
      cases x with
      | failed op reason fk => exact hone ht fun hremoval => absurd hremoval.2 (by simp [Result.stuck, Result.failure])
      | unwritable why => exact fun rs hrs => absurd hrs (by simp [Ending.of, Ending.recorded])
    have hlook : ∀ {w : Watched}, w.host.tables.LacksRemoved gone →
        (w.after (.call (.isActive .domain name))).host.tables.LacksRemoved gone := fun hw =>
      hkept (q := .call _) hw (by simp [Query.CallsOnly])
    have hundefine : ∀ {w : Watched}, w.host.tables.LacksRemoved gone →
        (w.after (.call (.undefine .domain name))).host.tables.LacksRemoved gone := fun hw =>
      hkept (q := .call _) hw (by simp [Query.CallsOnly])
    unfold remove
    refine .andThen (.attempt (Q := fun a w => w.host.tables.LacksRemoved gone)
      (by simp [Call.SparesUsed]) (fun _ _ => hlook ?_) fun _ => hlook ?_) (fun running w hw => ?_)
      fun _ _ hw => hstuck hw
    · exact hkept (q := .cancelled) hgone trivial
    · exact hkept (q := .cancelled) hgone trivial
    · refine .andThen (.change (Q := fun a w' => w'.host.tables.LacksRemoved gone ∧
        (a = .ok () → w'.host.tables.get? .domain name = none))
        (fun _ k other hk hc => absurd (Call.undefine.inj hc).1.symm hk) (by simp)
        (fun a _ ha => ⟨hundefine hw, fun _ => ?_⟩) fun x _ => ⟨hundefine hw, by simp⟩)
        (fun _ w hw => ?_) fun _ _ hw => hstuck hw.1
      · -- this call takes the domain out of its table
        have hserve := Memory.serve_eq_of_call_eq_ok ha
        obtain ⟨r, -, hserve⟩ := Tables.exists_of_bind_eq_ok hserve
        obtain ⟨-, htables⟩ := Prod.mk.inj (Except.ok.inj hserve)
        show (w.host.call _).2.tables.get? _ _ = none
        rw [← htables, Tables.get?_erase]
        simp
      · refine .pure fun rs hrs => ?_
        obtain rfl := Except.ok.inj hrs
        exact hw.1.append fun x hx _ => by
          obtain rfl := List.mem_singleton.1 hx
          exact hw.2 rfl

/-- Removing stale domains one after the other. -/
theorem Domain.safe_removals {names : List String} {w : Watched} {gone : List Result}
    (hgone : w.host.tables.LacksRemoved gone) :
    Talk.Safe Call.SparesUsed (fun r w => ∀ rs, r = .ok rs → w.host.tables.LacksRemoved (gone ++ rs))
      (gather (names.map (Domain.removal false))) w := by
  induction names generalizing w gone with
  | nil =>
    refine .pure fun rs hrs => ?_
    obtain rfl := Except.ok.inj hrs
    rw [List.append_nil]
    exact hgone
  | cons name names ih =>
    refine Talk.Safe.bind (Domain.safe_removal hgone) fun r w hw => ?_
    cases r with
    | error why =>
      -- the others are removed all the same, but there are no results
      have hnone : w.host.tables.LacksRemoved [] := fun x hx => absurd hx (by simp)
      refine (ih hnone).bind fun rs w _ => .pure ?_
      exact fun rs hrs => absurd hrs (by simp [Recorded.append, Except.bind])
    | ok xs =>
      refine (ih (hw xs rfl)).bind fun rs w hw => .pure fun zs hzs => ?_
      obtain ⟨ys, us, hys, rfl, rfl⟩ := Recorded.append_eq_ok_iff.1 hzs
      rw [← Except.ok.inj hys, ← List.append_assoc]
      exact hw us rfl

/-! ### What was read of domains -/

namespace Watched

variable {w : Watched} {domain : String} {e : Element}

/-- What the last look at the document of a domain came to, if there was one. -/
def lastRead? (w : Watched) (domain : String) : Option (Except HostError String) :=
  (w.calls.reverse.find? fun x => x.2 = .read .domain domain).map fun x =>
    (x.1.call (.read .domain domain)).1

theorem lastRead?_after_read (w : Watched) (domain : String) :
    (w.after (.call (.read .domain domain))).lastRead? domain =
      some (w.host.call (.read .domain domain)).1 := by
  simp [lastRead?]

theorem lastRead?_after {q : Query} (hq : q ≠ .call (.read .domain domain)) :
    (w.after q).lastRead? domain = w.lastRead? domain := by
  cases q with
  | call c =>
    have hc : c ≠ .read .domain domain := fun he => hq (congrArg _ he)
    simp [lastRead?, hc]
  | cancelled => rfl
  | now => rfl
  | sleep _ => rfl

/-- Whether the document of a domain is known: it can be read, and the last look at it found it as it is. -/
structure Knows (w : Watched) (domain : String) (e : Element) : Prop where
  known : ∃ r, w.host.tables.get? .domain domain = some r ∧ Element.read? r.document = some e ∧
    w.lastRead? domain = some (.ok r.document)

/-- A document that is found and can be read is known. -/
theorem knows_of_read {document : String} (h : (w.host.call (.read .domain domain)).1 = .ok document)
    (he : Element.read? document = some e) : (w.after (.call (.read .domain domain))).Knows domain e := by
  obtain ⟨r, hfind, hserve⟩ := Tables.exists_of_bind_eq_ok (Memory.serve_eq_of_call_eq_ok h)
  obtain ⟨rfl, -⟩ := Prod.mk.inj (Except.ok.inj hserve)
  refine ⟨r, ?_, he, ?_⟩
  · rw [tables_after_of_isStill rfl]
    exact Tables.get?_of_find hfind
  · rw [lastRead?_after_read, h]

/-- What is known of a domain stays known if it stays as it is and is not looked at again. -/
theorem Knows.after {q : Query} (h : w.Knows domain e) (hq : q ≠ .call (.read .domain domain))
    (hsame : (w.after q).host.tables.get? .domain domain = w.host.tables.get? .domain domain) :
    (w.after q).Knows domain e := by
  obtain ⟨r, hr, he, hlast⟩ := h.known
  exact ⟨r, hsame.trans hr, he, (lastRead?_after hq).trans hlast⟩

/-- What is known of a domain stays known when the document of a domain is found, be it the same or another. -/
theorem Knows.after_read {other document : String} (h : w.Knows domain e)
    (hread : (w.host.call (.read .domain other)).1 = .ok document) :
    (w.after (.call (.read .domain other))).Knows domain e := by
  by_cases hsame : other = domain
  · subst hsame
    obtain ⟨r, hr, he, -⟩ := h.known
    obtain ⟨r', hfind, hserve⟩ := Tables.exists_of_bind_eq_ok (Memory.serve_eq_of_call_eq_ok hread)
    obtain rfl := Option.some.inj (hr.symm.trans (Tables.get?_of_find hfind))
    obtain ⟨rfl, -⟩ := Prod.mk.inj (Except.ok.inj hserve)
    exact knows_of_read hread he
  · refine h.after (fun heq => hsame ?_) (by rw [tables_after_of_isStill rfl])
    injection heq with heq
    exact (Call.read.inj heq).2

/-- Whether what all domains refer to is known. -/
def Refer (w : Watched) (refs : List References) : Prop :=
  ∀ domain r, w.host.tables.get? .domain domain = some r →
    ∃ e, w.Knows domain e ∧ References.of domain e ∈ refs

/-- What domains refer to stays known while other kinds are dealt with. -/
theorem Refer.after {refs : List References} {q : Query} (h : w.Refer refs)
    (hq : q.CallsOnly fun c => c.target.1 ≠ .domain) : (w.after q).Refer refs := by
  have htable : (w.after q).host.tables.table .domain = w.host.tables.table .domain := by
    cases q with
    | call c =>
      show (w.host.call c).2.tables.table .domain = _
      rcases Memory.tables_call w.host c with heq | ⟨a, ha⟩
      · rw [heq]
      · exact Tables.table_serve_of_ne ha fun hkind => absurd hkind hq
    | cancelled => rfl
    | now => rfl
    | sleep _ => rfl
  have hsame : ∀ domain, (w.after q).host.tables.get? .domain domain = w.host.tables.get? .domain domain :=
    fun domain => congrArg (·.get? domain) htable
  intro domain r hr
  obtain ⟨e, hknows, hmem⟩ := h domain r ((hsame domain).symm.trans hr)
  refine ⟨e, hknows.after ?_ (hsame domain), hmem⟩
  rintro rfl
  exact hq rfl

/-- A resource that no known domain refers to is free. -/
theorem Refer.isFree {refs : List References} (h : w.Refer refs) {k : DefinedKind} {name : String}
    (hunused : (References.users refs k name).isEmpty = true) : w.host.tables.IsFree k name := by
  intro domain r hr
  obtain ⟨e, hknows, hmem⟩ := h domain r hr
  obtain ⟨r', hr', he, -⟩ := hknows.known
  obtain rfl := Option.some.inj (hr.symm.trans hr')
  refine ⟨e, he, Bool.eq_false_iff.2 fun huses => ?_⟩
  have huser : domain ∈ References.users refs k name := by
    rw [References.users, List.mem_mergeSort, List.mem_eraseDups]
    exact List.mem_map.2 ⟨_, List.mem_filter.2 ⟨hmem, huses⟩, rfl⟩
  rw [List.isEmpty_iff.1 hunused] at huser
  exact absurd huser (by simp)

/-- Whether no network and no pool was undefined, or all domains are known. -/
def Careful (w : Watched) : Prop :=
  (∀ x ∈ w.calls, x.2.KeepsRest) ∨ ∀ domain r, w.host.tables.get? .domain domain = some r →
    ∃ e, w.Knows domain e

theorem Refer.careful {refs : List References} (h : w.Refer refs) : w.Careful := by
  refine .inr fun domain r hr => ?_
  obtain ⟨e, hknows, -⟩ := h domain r hr
  exact ⟨e, hknows⟩

/-- Calls that undefine no network and no pool keep it so. -/
theorem keepsRest_after {q : Query} (h : ∀ x ∈ w.calls, x.2.KeepsRest) (hq : q.CallsOnly Call.KeepsRest) :
    ∀ x ∈ (w.after q).calls, x.2.KeepsRest := by
  cases q with
  | call c =>
    rw [calls_after_call, List.forall_mem_append]
    exact ⟨h, by simpa [Query.CallsOnly] using hq⟩
  | cancelled => exact h
  | now => exact h
  | sleep _ => exact h

end Watched

/-! ### Phases -/

namespace Removal

variable {results : List Result} {w : Watched}

theorem Looks.keepsRest {c : Call} (h : Looks c) : c.KeepsRest := by
  rintro k name rfl
  exact absurd h.2 (by simp [Call.isReading])

/-- **What is read of domains is known**, and what was known stays known. -/
theorem safe_referencesOf (domains : List String) (w : Watched) :
    Talk.Safe Call.SparesUsed (fun reply w' => w'.host.tables = w.host.tables ∧ ∀ refs, reply = .ok refs →
      (∀ domain e, w.Knows domain e → w'.Knows domain e) ∧
      ∀ domain ∈ domains, wasRemoved results domain = false →
        ∃ e, w'.Knows domain e ∧ References.of domain e ∈ refs) (referencesOf results domains) w := by
  induction domains generalizing w with
  | nil => exact .pure ⟨rfl, fun refs _ => ⟨fun _ _ => id, by simp⟩⟩
  | cons domain domains ih =>
    unfold referencesOf
    split
    · next hremoved =>
      refine (ih w).mono (fun _ _ => id) fun reply w' h => ⟨h.1, fun refs hrefs => ⟨(h.2 refs hrefs).1, ?_⟩⟩
      refine List.forall_mem_cons.2 ⟨fun hremains => ?_, (h.2 refs hrefs).2⟩
      exact absurd (hremains.symm.trans hremoved) (by simp)
    · refine Talk.Safe.bind (Talk.Safe.call (Q := fun reply w' => w' = w.after (.call (.read .domain domain)) ∧
        reply = (w.host.call (.read .domain domain)).1) (by simp [Call.SparesUsed]) ⟨rfl, rfl⟩) ?_
      rintro reply _ ⟨rfl, hreply⟩
      -- reading changes nothing, so what is read of one domain is still so when the next one is read
      have hsame : (w.after (.call (.read .domain domain))).host.tables = w.host.tables :=
        w.tables_after_of_isStill rfl
      split
      · exact .pure ⟨hsame, by simp⟩
      · next document =>
        split
        · exact .pure ⟨hsame, by simp⟩
        · next e he =>
          have hknows := Watched.knows_of_read hreply.symm he
          refine (ih _).bind fun rest w' h => .pure ⟨h.1.trans hsame, fun refs hrefs => ?_⟩
          cases rest with
          | error reason => exact absurd hrefs (by simp [Except.map])
          | ok rest =>
            obtain rfl := Except.ok.inj hrefs
            obtain ⟨hkept, hread⟩ := h.2 rest rfl
            refine ⟨fun other e' h' => hkept other e' (h'.after_read hreply.symm), ?_⟩
            refine List.forall_mem_cons.2 ⟨fun _ => ⟨e, hkept domain e hknows, by simp⟩, ?_⟩
            intro other hother hremains
            obtain ⟨e', hknows', hmem⟩ := hread other hother hremains
            exact ⟨e', hknows', by simp [hmem]⟩

/-- **What all domains refer to is known** when it has been looked up, if those that count as removed are
gone. -/
theorem safe_references (hgone : w.host.tables.LacksRemoved results) :
    Talk.Safe Call.SparesUsed (fun reply w => ∀ refs, reply = .ok refs → w.Refer refs)
      (references results) w := by
  refine Talk.Safe.bind (Talk.Safe.call (Q := fun reply w' => w' = w.after (.call (.list .domain)) ∧
    ∀ names, reply = .ok names → names = w.host.tables.sortedNames .domain) (fun _ _ _ => nofun)
    ⟨rfl, fun names hnames => ?_⟩) ?_
  · exact (Prod.mk.inj (Except.ok.inj (Memory.serve_eq_of_call_eq_ok hnames))).1.symm
  · rintro reply _ ⟨rfl, hreply⟩
    split
    · exact .pure fun _ => nofun
    · next names =>
      obtain rfl := hreply names rfl
      refine (safe_referencesOf _ _).mono (fun _ _ => id) fun reply w' h refs hrefs domain r hr => ?_
      rw [h.1, Watched.tables_after_of_isStill rfl] at hr
      refine (h.2 refs hrefs).2 domain (Tables.mem_sortedNames_iff.2 (by rw [hr]; rfl))
        (Bool.eq_false_iff.2 fun hremoved => ?_)
      exact absurd ((hgone.get?_eq_none hremoved).symm.trans hr) (by simp)

/-- A network or pool is undefined only if it is free. -/
theorem safe_task {refs : List References} (hrefer : w.Refer refs) {k : DefinedKind} (hk : k ≠ .domain)
    (name : String) : Talk.Safe Call.SparesUsed (fun _ w => w.Refer refs) (task false refs k name) w := by
  rw [task_eq]
  split
  · next hunused =>
    have hcancelled : (w.after .cancelled).Refer refs := hrefer.after trivial
    have hundefined : ((w.after .cancelled).after (.call (.undefine k name))).Refer refs :=
      hcancelled.after (q := .call _) hk
    refine Talk.Safe.bind (Talk.Safe.supervise (Q := fun _ w => w.Refer refs) hcancelled ?_)
      fun _ _ h => .pure h
    refine .andThen (.change (Q := fun _ w => w.Refer refs) (fun _ l other _ hc => ?_) (fun h => nomatch h)
      (fun _ _ _ => hundefined) fun _ _ => hundefined) (fun _ _ h => .pure h) fun _ _ h => h
    obtain ⟨rfl, rfl⟩ := Call.undefine.inj hc
    exact hcancelled.isFree hunused
  · exact .pure hrefer

/-- **Networks and pools are removed only if they are free.** -/
theorem safe_run {stale : List (DefinedKind × String)} (hkind : ∀ s ∈ stale, s.1 ≠ .domain)
    (hgone : w.host.tables.LacksRemoved results) (hkept : ∀ x ∈ w.calls, x.2.KeepsRest) :
    Talk.Safe Call.SparesUsed (fun _ w => w.Careful) (run false results stale) w := by
  unfold run
  split
  · exact .pure (.inl hkept)
  · refine Talk.Safe.bind (.cancelled (Q := fun _ w' => w'.host.tables.LacksRemoved results ∧
      ∀ x ∈ w'.calls, x.2.KeepsRest) fun _ => ⟨hgone, hkept⟩) fun cancelled w hw => ?_
    split
    · exact .pure (.inl hw.2)
    · have hlooks := Talk.Safe.of_confined (p := fun _ _ => True) (I := fun w => ∀ x ∈ w.calls, x.2.KeepsRest)
        (confined_references results)
        (fun w q hq hw => Watched.keepsRest_after hw (hq.mono fun _ => Looks.keepsRest))
        (fun _ _ hq _ => hq.mono fun _ _ => trivial) hw.2
      refine Talk.Safe.bind (((safe_references hw.1).and hlooks).mono (fun _ _ h => h.1) fun _ _ => id)
        fun reply w h => ?_
      split
      · exact .pure (.inl h.2.2)
      · next refs =>
        refine (Talk.Safe.gather (I := fun w => w.Refer refs) (fun t ht w hw => ?_) (h.1 refs rfl)).mono
          (fun _ _ => id) fun _ _ hrefer => hrefer.careful
        obtain ⟨s, hs, rfl⟩ := List.mem_map.1 ht
        exact safe_task hw (hkind s hs) s.2

end Removal

/-- **A real pass undefines free networks and pools only**, and none if a domain is not known. -/
theorem Desired.safe_careful (d : Desired) (timeout : Binary64) {w : Watched}
    (hw : ∀ x ∈ w.calls, x.2.KeepsRest) :
    Talk.Safe Call.SparesUsed (fun _ w => w.Careful) (d.phases false timeout) w := by
  have hconfined : ∀ {α : Type} {t : Talk α} {e : α → Prop} {w : Watched},
      t.Confined (Query.CallsOnly Call.KeepsRest) e → (∀ x ∈ w.calls, x.2.KeepsRest) →
      Talk.Safe Call.SparesUsed (fun a w => e a ∧ ∀ x ∈ w.calls, x.2.KeepsRest) t w := fun ht hw =>
    .of_confined (I := fun w => ∀ x ∈ w.calls, x.2.KeepsRest) ht
      (fun _ _ hq hw => Watched.keepsRest_after hw hq) (fun w _ hq _ => hq.mono fun _ hc => hc.sparesUsed w.host) hw
  -- no result speaks of a removal before domains are removed, and no network or pool is undefined before the last phase
  refine safe_phases
    (A := fun first _ _ w => (∀ x ∈ first, ¬ x.IsRemoval) ∧ ∀ x ∈ w.calls, x.2.KeepsRest)
    (B := fun first _ _ second _ w => (∀ x ∈ first ++ second, ¬ x.IsRemoval) ∧ ∀ x ∈ w.calls, x.2.KeepsRest)
    (C := fun soFar _ _ w => w.host.tables.LacksRemoved soFar ∧ ∀ x ∈ w.calls, x.2.KeepsRest) ?_ ?_ ?_ ?_
  · exact (hconfined (d.confined_kept_first false) hw).mono (fun _ _ => id) fun x w h =>
      ⟨.inl h.2, fun first hfirst => ⟨h.1 first hfirst, h.2⟩⟩
  · exact fun first _ _ w hA => (hconfined (d.confined_kept false timeout first) hA.2).mono (fun _ _ => id)
      fun x w h => ⟨.inl h.2, fun second hsecond =>
        ⟨List.forall_mem_append.2 ⟨hA.1, h.1 second hsecond⟩, h.2⟩⟩
  · intro first _ _ second domains w hB
    have hcalls : (gather (domains.map (Domain.removal false))).Confined (Query.CallsOnly Call.KeepsRest)
        fun _ => True := confined_removeDomains fun name _ =>
      ⟨fun _ _ => nofun, fun _ k other hc => (Call.undefine.inj hc).1.symm⟩
    exact ((Domain.safe_removals (.of_kept hB.1 w.host.tables)).and (hconfined hcalls hB.2)).mono
      (fun _ _ h => h.1) fun x w h => ⟨.inl h.2.2, fun third hthird => ⟨h.1 third hthird, h.2.2⟩⟩
  · intro soFar networks pools w hC
    refine Removal.safe_run (fun s hs => ?_) hC.1 hC.2
    rcases List.mem_append.1 hs with hs | hs
    · obtain ⟨name, -, rfl⟩ := List.mem_map.1 hs
      simp
    · obtain ⟨name, -, rfl⟩ := List.mem_map.1 hs
      simp

/-! ### What is in use stays -/

/-- **Nothing in use is removed.** Whatever is desired, whatever is on the host, whatever fails and whenever the
pass is cancelled: when a network or a pool is undefined, the documents of all domains on the host can be read
and none of them refers to it. And if a domain remains whose document cannot be read, or could not be when the
pass last tried, then no network and no pool has been undefined. -/
theorem Settings.undefines_only_free (s : Settings) (d : Desired) (dryRun : Option Bool) (m : Memory)
    (cancels : Nat → Bool) :
    let w := (m.watch cancels (s.apply d dryRun)).2
    (∀ x ∈ w.calls, ∀ k name, k ≠ .domain → x.2 = .undefine k name → x.1.tables.IsFree k name) ∧
    ∀ domain r, w.host.tables.get? .domain domain = some r →
      Element.read? r.document = none ∨ w.lastRead? domain ≠ some (.ok r.document) →
      ∀ x ∈ w.calls, ∀ k name, x.2 = .undefine k name → k = .domain := by
  have hsafe : Talk.Safe Call.SparesUsed (fun _ w => w.Careful) (s.apply d dryRun) { host := m } := by
    refine safe_apply (.inl fun x hx => absurd hx (by simp)) fun _ => ?_
    -- a dry run only reads, and of a real one the phases are careful
    cases hdry : s.isDry dryRun with
    | true =>
      have hreads : ∀ c : Call, c.isReading = true → c.KeepsRest := by
        rintro c hc k name rfl
        exact absurd hc (by simp [Call.isReading])
      refine (Talk.Safe.of_confined (I := fun w => ∀ x ∈ w.calls, x.2.KeepsRest)
        (Desired.confined_reading d s.pass.shutdownTimeout)
        (fun _ _ hq hw => Watched.keepsRest_after hw (hq.mono hreads))
        (fun w _ hq _ => hq.mono fun c hc => (hreads c hc).sparesUsed w.host)
        fun x hx => absurd hx (by simp)).mono (fun _ _ => id) fun _ _ h => .inl h.2
    | false => exact d.safe_careful _ fun x hx => absurd hx (by simp)
  obtain ⟨hcalls, hcareful⟩ := hsafe.watch cancels
  refine ⟨fun x hx => hcalls x hx, fun domain r hr hunknown => ?_⟩
  rcases hcareful with hkept | hknown
  · exact hkept
  · obtain ⟨e, hknows⟩ := hknown domain r hr
    obtain ⟨r', hr', he, hlast⟩ := hknows.known
    obtain rfl := Option.some.inj (hr.symm.trans hr')
    rcases hunknown with hmalformed | hunread
    · exact absurd (he.symm.trans hmalformed) (by simp)
    · exact absurd hlast hunread

end VirtualTopology
