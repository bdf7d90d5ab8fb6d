import VirtualTopology.Proofs.Host.Watched
import VirtualTopology.Proofs.Pass.Course
import VirtualTopology.Proofs.Pass.Reach

/-!
# Passes over watched hosts

A pass is safe on a watched host (`Talk.Safe`) if its phases are, one behind the other (`Desired.safe_phases`).
What one phase finds out is handed on to those behind it: the results so far, and the resources that are stale.

A stale resource is there, is of a managed kind, and is not declared (`Desired.Strays`). It stays so while
declared resources are brought in line (`Strays.safe`), so that it can be removed; and while one of them is
removed, the others stay (`Strays.safe_gather`).
-/

namespace VirtualTopology

open Dialogue

variable {p : Memory → Call → Prop} {w : Watched}

/-! ### Listing -/

/-- What is known of a kind when it has been listed: the names that are there, if the kind is managed and the
call goes well; of a kind that is not managed, that it is left alone. -/
theorem Stock.safe_take {kind : DefinedKind} {managed : Bool} (hp : p w.host (.list kind)) :
    Talk.Safe p (fun s w' => w' = w.after (.call (.list kind)) ∧
      (∀ names, s = .known names → managed = true ∧ names = w.host.tables.sortedNames kind) ∧
      ∀ results, s = .leftAlone results → ∀ x ∈ results, x.outcome = .skippedUnmanaged)
      (take kind managed) w := by
  refine Talk.Safe.bind (Talk.Safe.call (Q := fun reply w' => w' = w.after (.call (.list kind)) ∧
    ∀ names, reply = .ok names → names = w.host.tables.sortedNames kind) hp ⟨rfl, ?_⟩) ?_
  · intro names hnames
    have hserve := Memory.serve_eq_of_call_eq_ok hnames
    exact (Prod.mk.inj (Except.ok.inj hserve)).1.symm
  · rintro reply _ ⟨rfl, hreply⟩
    split
    · next names =>
      refine .pure ⟨rfl, fun names' hnames => ⟨rfl, ?_⟩, by simp⟩
      rw [← Stock.known.inj hnames]
      exact hreply names rfl
    · exact .pure ⟨rfl, by simp, by simp⟩
    · refine .pure ⟨rfl, by simp, fun results hresults => ?_⟩
      obtain rfl := Stock.leftAlone.inj hresults
      exact List.forall_mem_map.2 fun _ _ => rfl
    · refine .pure ⟨rfl, by simp, fun results hresults => ?_⟩
      obtain rfl := Stock.leftAlone.inj hresults
      simp

/-! ### Phases -/

namespace Desired

variable {d : Desired} {dry : Bool} {timeout : Binary64}

/-- **A pass is safe if its phases are.** What holds behind the phases that bring resources in line (`A`, `B`) and
behind the removal of domains (`C`) can speak of the results so far and of what is stale. -/
theorem safe_phases {R : Watched → Prop} {A : List Result → List String → List String → Watched → Prop}
    {B : List Result → List String → List String → List Result → List String → Watched → Prop}
    {C : List Result → List String → List String → Watched → Prop}
    (hfirst : Talk.Safe p (fun x w => R w ∧ ∀ first, x.1 = .ok first → A first x.2.1 x.2.2 w)
      (d.networksAndPools dry) w)
    (hsecond : ∀ first networks pools w, A first networks pools w →
      Talk.Safe p (fun x w => R w ∧ ∀ second, x.1 = .ok second → B first networks pools second x.2 w)
        (d.domainsInLine dry timeout first) w)
    (hthird : ∀ first networks pools second domains w, B first networks pools second domains w →
      Talk.Safe p (fun x w => R w ∧ ∀ third, x = .ok third → C (first ++ second ++ third) networks pools w)
        (gather (domains.map (Domain.removal dry))) w)
    (hlast : ∀ soFar networks pools w, C soFar networks pools w →
      Talk.Safe p (fun _ w => R w) (Removal.run dry soFar
        (networks.map (DefinedKind.network, ·) ++ pools.map (DefinedKind.pool, ·))) w) :
    Talk.Safe p (fun _ w => R w) (d.phases dry timeout) w := by
  unfold phases
  refine hfirst.bind ?_
  rintro ⟨first, networks, pools⟩ w ⟨hR, hA⟩
  -- without results nothing follows
  cases first with
  | error why => exact .pure hR
  | ok first =>
    refine (hsecond first networks pools w (hA first rfl)).bind ?_
    rintro ⟨second, domains⟩ w ⟨hR, hB⟩
    cases second with
    | error why => exact .pure hR
    | ok second =>
      refine (hthird first networks pools second domains w (hB second rfl)).bind ?_
      rintro third w ⟨hR, hC⟩
      cases third with
      | error why => exact .pure hR
      | ok third => exact (hlast _ networks pools w (hC third rfl)).bind fun _ w hR => .pure hR

/-! ### Stale resources -/

/-- Whether resources are stale, and each is named once: they are there, are of managed kinds, and are not
declared. -/
structure Strays (d : Desired) (stale : List (DefinedKind × String)) (t : Tables) : Prop where
  nodup : stale.Nodup
  managed : ∀ s ∈ stale, d.manages s.1 = true
  undeclared : ∀ s ∈ stale, s.2 ∉ d.names s.1
  there : ∀ s ∈ stale, (t.get? s.1 s.2).isSome = true

namespace Strays

variable {stale xs ys : List (DefinedKind × String)} {t u : Tables}

/-- What is listed and not declared is stale. -/
theorem of_stock {k : DefinedKind} {s : Stock}
    (hs : ∀ names, s = .known names → d.manages k = true ∧ names = t.sortedNames k) :
    d.Strays ((s.stale (d.names k)).map (k, ·)) t := by
  have hmem : ∀ name ∈ s.stale (d.names k), d.manages k = true ∧ name ∉ d.names k ∧
      (t.get? k name).isSome = true := by
    intro name hname
    cases s with
    | leftAlone results => exact absurd hname (by simp [Stock.stale])
    | unknown reason => exact absurd hname (by simp [Stock.stale])
    | known names =>
      obtain ⟨hmanaged, rfl⟩ := hs names rfl
      obtain ⟨hthere, hundeclared⟩ := Stock.mem_stale_iff.1 hname
      exact ⟨hmanaged, hundeclared, Tables.mem_sortedNames_iff.1 hthere⟩
  refine ⟨(Stock.nodup_stale _ _).map fun _ _ he => (Prod.mk.inj he).2, ?_, ?_, ?_⟩
  · exact List.forall_mem_map.2 fun name hname => (hmem name hname).1
  · exact List.forall_mem_map.2 fun name hname => (hmem name hname).2.1
  · exact List.forall_mem_map.2 fun name hname => (hmem name hname).2.2

/-- Stale resources of different kinds. -/
theorem append (h : d.Strays xs t) (h' : d.Strays ys t) (hne : ∀ s ∈ xs, ∀ s' ∈ ys, s.1 ≠ s'.1) :
    d.Strays (xs ++ ys) t := by
  refine ⟨List.nodup_append.2 ⟨h.nodup, h'.nodup, fun s hs s' hs' he => hne s hs s' hs' (by rw [he])⟩,
    fun s hs => ?_, fun s hs => ?_, fun s hs => ?_⟩
  · exact (List.mem_append.1 hs).elim (h.managed s) (h'.managed s)
  · exact (List.mem_append.1 hs).elim (h.undeclared s) (h'.undeclared s)
  · exact (List.mem_append.1 hs).elim (h.there s) (h'.there s)

theorem left (h : d.Strays (xs ++ ys) t) : d.Strays xs t :=
  ⟨(List.nodup_append.1 h.nodup).1, fun s hs => h.managed s (by simp [hs]),
    fun s hs => h.undeclared s (by simp [hs]), fun s hs => h.there s (by simp [hs])⟩

theorem right (h : d.Strays (xs ++ ys) t) : d.Strays ys t :=
  ⟨(List.nodup_append.1 h.nodup).2.1, fun s hs => h.managed s (by simp [hs]),
    fun s hs => h.undeclared s (by simp [hs]), fun s hs => h.there s (by simp [hs])⟩

/-- What leaves stale resources as they are leaves them stale. -/
theorem of_same (h : d.Strays stale t) (hsame : ∀ s ∈ stale, u.get? s.1 s.2 = t.get? s.1 s.2) :
    d.Strays stale u :=
  ⟨h.nodup, h.managed, h.undeclared, fun s hs => by rw [hsame s hs]; exact h.there s hs⟩

/-- **A dialogue about other resources leaves stale resources stale.** -/
theorem safe {α : Type} {c : Talk α} {e : α → Prop} {P : Call → Prop} (hw : d.Strays stale w.host.tables)
    (hc : c.Confined (Query.CallsOnly P) e) (hp : ∀ m c, P c → p m c)
    (hspares : ∀ c, P c → ∀ s ∈ stale, c.Spares s.1 s.2) :
    Talk.Safe p (fun a w => e a ∧ d.Strays stale w.host.tables) c w := by
  refine .of_confined (I := fun w => d.Strays stale w.host.tables) hc (fun w q hq hw => ?_)
    (fun w q hq _ => hq.mono (hp w.host)) hw
  exact hw.of_same fun s hs => Memory.get?_answer_of_spares (hq.mono fun c hc => hspares c hc s hs)

/-- **Stale resources can be removed one after the other**: a task that goes to one of them finds it there. -/
theorem safe_gather {task : DefinedKind × String → Talk Recorded} {e : Recorded → Prop}
    (hw : d.Strays stale w.host.tables)
    (hspares : ∀ s ∈ stale, (task s).Confined (Query.CallsOnly fun c =>
      c.isStill = true ∨ c.IsAbout s.1 s.2) e)
    (htask : ∀ s ∈ stale, ∀ w : Watched, d.Strays [s] w.host.tables →
      Talk.Safe p (fun _ _ => True) (task s) w) :
    Talk.Safe p (fun _ _ => True) (gather (stale.map task)) w := by
  induction stale generalizing w with
  | nil => exact .pure trivial
  | cons s stale ih =>
    have hsplit : d.Strays ([s] ++ stale) w.host.tables := hw
    have hne : ∀ s' ∈ stale, s ≠ s' := fun s' hs' he => (List.nodup_cons.1 hw.nodup).1 (he ▸ hs')
    -- the task goes to this resource, so the others stay
    have hothers := hsplit.right.safe (p := fun _ _ => True) (hspares s (by simp)) (fun _ _ _ => trivial)
      fun c hc s' hs' => hc.elim (fun hstill => Call.spares_of_isStill hstill)
        fun habout => habout.spares (hne s' hs')
    refine Talk.Safe.bind ((htask s (by simp) w hsplit.left).and hothers |>.mono (fun _ _ h => h.1)
      fun _ _ h => h.2.2) fun _ w hw => ?_
    refine Talk.Safe.bind (ih hw (fun s' hs' => hspares s' (by simp [hs']))
      fun s' hs' => htask s' (by simp [hs'])) fun _ _ _ => .pure trivial

end Strays

end Desired

/-- A pass is safe if its phases are, and calls nothing if the desired state has issues. -/
theorem Settings.safe_apply {s : Settings} {d : Desired} {dryRun : Option Bool} {R : Watched → Prop}
    (hw : R w)
    (h : d.audit = [] → Talk.Safe p (fun _ w => R w) (d.phases (s.isDry dryRun) s.pass.shutdownTimeout) w) :
    Talk.Safe p (fun _ w => R w) (s.apply d dryRun) w := by
  unfold apply
  dsimp only
  split
  · next haudit =>
    refine (h (List.isEmpty_iff.1 haudit)).bind fun recorded w hR => ?_
    split <;> exact .pure hR
  · exact .pure hw

/-- What is known of the results of the phases holds of the results of a report. -/
theorem Settings.safe_report {s : Settings} {d : Desired} (dryRun : Option Bool) {Q : List Result → Watched → Prop}
    (h : d.audit = [] → Talk.Safe p (fun recorded w => ∀ rs, recorded = .ok rs → Q rs w)
      (d.phases (s.isDry dryRun) s.pass.shutdownTimeout) w) :
    Talk.Safe p (fun reply w => ∀ report, reply = .ok report → ∃ rs, report = .of rs (s.isDry dryRun) ∧ Q rs w)
      (s.apply d dryRun) w := by
  unfold apply
  dsimp only
  split
  · next haudit =>
    refine (h (List.isEmpty_iff.1 haudit)).bind fun recorded w hrecorded => ?_
    split
    · next rs => exact .pure fun report hreport => ⟨rs, (Except.ok.inj hreport).symm, hrecorded rs rfl⟩
    · exact .pure fun report hreport => absurd hreport (by simp)
  · exact .pure fun report hreport => absurd hreport (by simp)

theorem Except.eq_ok_of_mem_toOption {ε α : Type} {e : Except ε α} {a : α} (h : a ∈ e.toOption) : e = .ok a := by
  cases e with
  | error why => exact absurd h (by simp [Except.toOption])
  | ok b => exact congrArg Except.ok (Option.some.inj h)

/-- What a watched pass over a validated desired state reports is what its phases give. -/
theorem Settings.watch_apply_of_phases {s : Settings} {d : Desired} (dryRun : Option Bool) {m : Memory}
    {cancels : Nat → Bool} {rs : List Result} {w : Watched} (hvalid : d.Validates)
    (h : m.watch cancels (d.phases (s.isDry dryRun) s.pass.shutdownTimeout) = (.ok rs, w)) :
    m.watch cancels (s.apply d dryRun) = (.ok (.of rs (s.isDry dryRun)), w) := by
  unfold apply Memory.watch at *
  simp only [hvalid.audit, List.isEmpty_nil, if_true, Dialogue.run_bind, h, Dialogue.run_pure]

end VirtualTopology
