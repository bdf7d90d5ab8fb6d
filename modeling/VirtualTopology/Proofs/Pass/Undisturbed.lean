import VirtualTopology.Proofs.Pass.Aftermath
import VirtualTopology.Proofs.Pass.Blocking
import VirtualTopology.Proofs.Pass.DryRun

/-!
# Passes that nothing disturbs

On a calm host a pass finds what is there (`Course.mem_stale_iff`), and each task comes to what its resource
needs. A domain fails only if something that it depends on has failed, and then it is not touched
(`Domain.run_task_of_calm`); a stale domain is always deleted (`Course.removal_of_calm`). All this is said of
dry runs and of real ones at once, so that the two can be compared.
-/

namespace VirtualTopology

open Dialogue

/-! ### One domain -/

namespace Domain

variable {d : Domain} (h : Text.ArePlain d.texts)

include h

/-- **What a domain's task comes to on a calm host**: either the domain is blamed on something that failed and
stays as it is, or it comes in line. -/
theorem run_task_of_calm {m : Memory} (hm : m.Calm) {dry : Bool} {timeout : Binary64}
    {before rs : List Result}
    (hrs : (m.run (d.task dry timeout before (m.tables.get? .domain d.name).isSome)).1 = .ok rs) :
    ∃ x, rs = [x] ∧ x.kind = .domain ∧ x.name = d.name ∧
      (x.outcome = .failed ∧ (d.failedDependencies before).isEmpty = false ∧
          (m.run (d.task dry timeout before
            (m.tables.get? .domain d.name).isSome)).2.tables = m.tables ∨
        x.outcome = d.verdict d.document.print (m.tables.get? .domain d.name) ∧
          (d.failedDependencies before).isEmpty = true ∧ d.written = .ok d.document.print ∧
          (m.run (d.task dry timeout before
              (m.tables.get? .domain d.name).isSome)).2.tables.get? .domain d.name =
            if dry then (m.tables.get? .domain d.name).map fun r =>
              if d.looks (stores d.document.print r) then r.seen else r
            else some (d.settled d.document.print ((m.polls.get? d.name).getD 0)
              (m.tables.get? .domain d.name))) := by
  unfold task at hrs ⊢
  dsimp only at hrs ⊢
  -- a domain that nothing keeps back comes in line, for on a calm host no call fails
  split at hrs
  · next hblamed =>
    simp only [if_pos hblamed, Memory.run_bind, hm.uncancelled.run_supervise, Memory.run_pure] at hrs ⊢
    cases htext : d.written with
    | error why =>
      have hsync : (d.sync dry timeout (m.tables.get? .domain d.name).isSome).run
          = .done (.error (.unwritable why)) := by
        unfold sync store
        rw [htext]
        rfl
      rw [hsync] at hrs
      exact absurd hrs (by simp [Ending.of, Ending.recorded])
    | ok text =>
      obtain ⟨⟨details, hx⟩, htables⟩ :=
        ends_sync htext (nameInDocument_of_written h htext) m.tables dry timeout m hm rfl rfl
      obtain rfl := eq_print_of_written h htext
      rw [hx] at hrs
      exact ⟨_, (Except.ok.inj hrs).symm, rfl, rfl, .inr ⟨rfl, hblamed, rfl, htables⟩⟩
  · next hblamed =>
    rw [if_neg hblamed]
    exact ⟨_, (Except.ok.inj hrs).symm, rfl, rfl, .inl ⟨rfl, by simpa using hblamed, rfl⟩⟩

omit h in
theorem verdict_cases (d : Domain) (text : String) (old : Option StoredResource) :
    d.verdict text old ∈ [Outcome.created, .updated, .unchanged] := by
  unfold verdict stores
  cases old with
  | none => simp
  | some r =>
    by_cases hmatch : documentsMatch text r.document = true
    · simp only [if_pos hmatch]
      split <;> simp
    · simp [hmatch]

omit h in
/-- **The removal of a domain on a calm host** goes well. -/
theorem run_removal_of_calm {m : Memory} (hm : m.Calm) {name : String} {r : StoredResource}
    (ht : m.tables.get? .domain name = some r) (dry : Bool) :
    ∃ x : Result, (m.run (removal dry name)).1 = .ok [x] ∧ x.kind = .domain ∧ x.name = name ∧
      x.outcome = .deleted ∧
      (m.run (removal dry name)).2.tables.get? .domain name = if dry then some r.seen else none := by
  obtain ⟨⟨x, hx, houtcome, hkind, hname⟩, htables⟩ := ends_remove ht dry m hm rfl rfl
  simp only [removal_eq, Memory.run_bind, hm.uncancelled.run_supervise, Memory.run_pure, hx]
  exact ⟨x, rfl, hkind, hname, houtcome, htables⟩

end Domain

/-! ### The phases -/

/-- **Each declared resource of a kind has one result on a calm host**, and what holds of it and of the entry
behind its task holds of them in the end. -/
theorem Stock.run_tasks_of_calm {α : Type} {kind : DefinedKind} {declared : List α} {name : α → String}
    {task : α → Bool → Talk Recorded} {m m' : Memory} {s : Stock} {e : Recorded → Prop}
    {Q : α → Result → Option StoredResource → Prop} (hm : m.Calm) (hdistinct : (declared.map name).Nodup)
    (htask : ∀ a ∈ declared, ∀ b, (task a b).Confined (Query.CallsOnly (Call.IsAbout kind (name a))) e)
    (htake : m.run (take kind true) = (s, m')) {n : Memory} (hn : n.Calm)
    (hsame : ∀ a ∈ declared, n.tables.get? kind (name a) = m.tables.get? kind (name a))
    (hsingle : ∀ a ∈ declared, ∀ h : Memory, h.Calm → h.polls = n.polls →
      h.tables.get? kind (name a) = m.tables.get? kind (name a) →
      ∀ rs, (h.run (task a (m.tables.get? kind (name a)).isSome)).1 = .ok rs →
        ∃ x, rs = [x] ∧ x.kind = kind.resource ∧ x.name = name a ∧
          Q a x ((h.run (task a (m.tables.get? kind (name a)).isSome)).2.tables.get? kind (name a)))
    {rs : List Result} {n' : Memory}
    (hrs : n.run (gather (s.tasks kind declared name (fun _ => []) task)) = (.ok rs, n')) {a : α}
    (ha : a ∈ declared) :
    ∃ x, x.IsSole rs ∧ x.kind = kind.resource ∧ x.name = name a ∧ Q a x (n'.tables.get? kind (name a)) := by
  obtain rfl : s = .known (m.tables.sortedNames kind) := by
    have hvalue := take_of_calm hm kind true
    rw [htake] at hvalue
    exact hvalue
  rw [tasks_known] at hrs
  have hend := Memory.run_gather_single (m := n) (fun _ => kind) name (Q := Q) (nodup_pairs hdistinct)
    (fun a ha => htask a ha _) (fun a ha h hfollows hbefore => hsingle a ha h (hfollows.calm hn)
      hfollows.polls (hbefore.trans (hsame a ha))) (congrArg Prod.fst hrs) ha
  rw [hrs] at hend
  exact hend

namespace Desired.Course

variable {d : Desired} {dry : Bool} {timeout : Binary64} {m : Memory} (c : Course d dry timeout m)
  (hm : m.Calm) (hplain : d.IsPlain) (hvalid : d.Validates) {k : DefinedKind} {name : String}

include hm hplain hvalid

/-- **On a calm host the stale resources are those that are there, managed and not declared.** -/
theorem mem_stale_iff : name ∈ c.stale k ↔
    d.manages k = true ∧ (m.tables.get? k name).isSome = true ∧ name ∉ d.names k := by
  refine ⟨c.mem_stale hplain hvalid, fun ⟨hmanaged, hthere, hundeclared⟩ => ?_⟩
  obtain ⟨n, n', hfollows, htake, hsame⟩ := c.take_stock hplain hvalid k
  have hvalue := Stock.take_of_calm (hfollows.calm hm) k true
  rw [← hmanaged, htake, hmanaged, if_pos rfl] at hvalue
  rw [stale, show c.stock k = _ from hvalue, Stock.mem_stale_iff, Tables.mem_sortedNames_iff, hsame]
  exact ⟨hthere, hundeclared⟩

/-- **What becomes of a declared domain on a calm host.** -/
theorem domain_of_calm {y : Domain} (hy : y ∈ d.domains.items) :
    ∃ x : Result, x.IsSole c.ofDomains ∧ x.kind = .domain ∧ x.name = y.name ∧
      (x.outcome = .failed ∧ (y.failedDependencies (c.ofNetworks ++ c.ofPools)).isEmpty = false ∧
          c.powered.tables.get? .domain y.name = m.tables.get? .domain y.name ∨
        x.outcome = y.verdict y.document.print (m.tables.get? .domain y.name) ∧
          (y.failedDependencies (c.ofNetworks ++ c.ofPools)).isEmpty = true ∧
          y.written = .ok y.document.print ∧
          c.powered.tables.get? .domain y.name =
            if dry then (m.tables.get? .domain y.name).map fun r =>
              if y.looks (Domain.stores y.document.print r) then r.seen else r
            else some (y.settled y.document.print ((m.polls.get? y.name).getD 0)
              (m.tables.get? .domain y.name))) := by
  have hfilled : ∀ z : Domain, c.filled.tables.get? .domain z.name = m.tables.get? .domain z.name :=
    fun z => by rw [c.get?_filled hplain hvalid (by simp), c.get?_wired hplain (by simp)]
  have htake := c.takesDomains
  rw [Declared.isManaged_of_mem hy] at htake
  have hcalm := (c.follows_wired.trans (Memory.follows_of_run c.runsPools)).calm hm
  -- the tasks before it leave the domain as it was, so that its own task decides
  have hend := Stock.run_tasks_of_calm hcalm hvalid.domains (e := fun _ => True)
    (Q := fun y x after => x.outcome = .failed ∧
        (y.failedDependencies (c.ofNetworks ++ c.ofPools)).isEmpty = false ∧
        after = m.tables.get? .domain y.name ∨
      x.outcome = y.verdict y.document.print (m.tables.get? .domain y.name) ∧
        (y.failedDependencies (c.ofNetworks ++ c.ofPools)).isEmpty = true ∧
        y.written = .ok y.document.print ∧
        after = if dry then (m.tables.get? .domain y.name).map fun r =>
            if y.looks (Domain.stores y.document.print r) then r.seen else r
          else some (y.settled y.document.print ((m.polls.get? y.name).getD 0)
            (m.tables.get? .domain y.name)))
    (fun z hz b => (Domain.confined_task (hplain.domain hz) dry timeout _ b).mono
      (fun q hq => hq.mono fun _ hc => hc.about) fun _ _ => trivial)
    htake (c.follows_surveyed.calm hm) (fun z _ => by rw [c.tables_surveyed])
    (fun z hz h hh hpolls hbefore rs hrs => ?_) c.runsDomains hy
  · exact hend
  · rw [hfilled] at hbefore hrs
    rw [hfilled, ← c.follows_surveyed.polls, ← hpolls, ← hbefore]
    rw [← hbefore] at hrs
    obtain ⟨x, hx, hkind, hname, ⟨hfailed, hblamed, htables⟩ | hdone⟩ :=
      Domain.run_task_of_calm (hplain.domain hz) hh hrs
    · exact ⟨x, hx, hkind, hname, .inl ⟨hfailed, hblamed, by rw [htables]⟩⟩
    · exact ⟨x, hx, hkind, hname, .inr hdone⟩

/-- **What becomes of a stale domain on a calm host.** -/
theorem removal_of_calm (hname : name ∈ c.stale .domain) :
    ∃ x : Result, x.IsSole c.ofRemovals ∧ x.kind = .domain ∧ x.name = name ∧ x.outcome = .deleted ∧
      c.cleared.tables.get? .domain name =
        if dry then (m.tables.get? .domain name).map (·.seen) else none := by
  have hpowered := c.follows_powered.calm hm
  -- stale domains are not declared, so the earlier phases leave them alone
  have hbefore : ∀ n ∈ c.stale .domain,
      c.powered.tables.get? .domain n = m.tables.get? .domain n := fun n hn => by
    have hundeclared := (c.mem_stale hplain hvalid hn).2.2
    rw [c.get?_powered hplain (fun _ => hundeclared), c.get?_filled hplain hvalid (by simp),
      c.get?_wired hplain (by simp)]
  have hend := Memory.run_gather_single (m := c.powered) (fun _ => .domain) id (e := fun _ => True)
    (Q := fun n x after => x.outcome = .deleted ∧
      after = if dry then (m.tables.get? .domain n).map (·.seen) else none)
    (Stock.nodup_pairs (by simpa using Stock.nodup_stale c.domains (d.names .domain)))
    (fun n _ => (Domain.confined_removal dry n).mono (fun q hq => hq.mono fun _ hc => hc.about)
      fun _ _ => trivial)
    (fun n hn h hfollows hsame rs hrs => ?_) (congrArg Prod.fst c.runsRemovals) hname
  · rw [c.runsRemovals] at hend
    exact hend
  · obtain ⟨-, hthere, -⟩ := c.mem_stale hplain hvalid (k := .domain) hn
    obtain ⟨r, hr⟩ := Option.isSome_iff_exists.1 hthere
    rw [id, hbefore n hn, hr] at hsame
    obtain ⟨x, hx, hkind, hn', houtcome, htables⟩ :=
      Domain.run_removal_of_calm (hfollows.calm hpowered) hsame dry
    obtain rfl := Except.ok.inj (hrs.symm.trans hx)
    refine ⟨x, rfl, hkind, hn', houtcome, ?_⟩
    rw [id, htables, hr]
    rfl

/-! ### What stands in the way -/

omit hm hplain hvalid in
/-- The results that are there when networks and pools are removed. -/
def soFar : List Result := c.ofNetworks ++ c.ofPools ++ c.ofDomains ++ c.ofRemovals

omit hm hplain hvalid in
theorem mem_results_of_soFar {x : Result} (h : x ∈ c.soFar) : x ∈ c.results :=
  List.mem_append_left _ h

/-- **On a calm host exactly the stale domains count as removed.** -/
theorem wasRemoved_iff : Removal.wasRemoved c.soFar name = true ↔ name ∈ c.stale .domain := by
  rw [Removal.wasRemoved, beq_iff_eq, Option.map_eq_some_iff]
  constructor
  · rintro ⟨x, hfirst, hdeleted⟩
    obtain ⟨hkind, rfl⟩ : x.kind = .domain ∧ x.name = name := by
      simpa using List.find?_some hfirst
    have hmem := c.mem_results_of_soFar (List.mem_of_find?_eq_some hfirst)
    rcases c.about_results hplain hvalid (k := .domain) hmem hkind with ⟨hx, -⟩ | ⟨-, hstale⟩
    · -- what is brought in line is not deleted
      have hall := (c.confined_domains hplain).run_value Memory.answer c.surveyed
      rw [show Dialogue.run Memory.answer _ c.surveyed = _ from c.runsDomains] at hall
      rcases hall _ rfl x hx with ⟨-, hdeclared⟩ | ⟨-, -, hskipped⟩
      · obtain ⟨y, hy, hname⟩ := List.mem_map.1 hdeclared
        obtain ⟨x', hsole, hkind', hname', houtcome⟩ := c.domain_of_calm hm hplain hvalid hy
        obtain rfl := hsole.2 x hx (hkind.trans hkind'.symm) (by rw [hname', hname])
        rcases houtcome with ⟨hfailed, -⟩ | ⟨hverdict, -⟩
        · exact absurd (hfailed.symm.trans hdeleted) (by simp)
        · have hcases := y.verdict_cases y.document.print (m.tables.get? .domain y.name)
          rw [hverdict.symm.trans hdeleted] at hcases
          exact absurd hcases (by simp)
      · exact absurd (hskipped.symm.trans hdeleted) (by simp)
    · exact hstale
  · intro hstale
    obtain ⟨x, hsole, hkind, hname, hdeleted, -⟩ := c.removal_of_calm hm hplain hvalid hstale
    have hall := c.isSole_of_stale (k := .domain) hplain hvalid hsole hkind (hname ▸ hstale)
    obtain ⟨y, hy⟩ := Option.isSome_iff_exists.1
      (List.find?_isSome.2 ⟨x, List.mem_append_right _ hsole.1, by simp [hkind, hname]⟩ :
        (c.soFar.find? fun r => r.kind == .domain && r.name == name).isSome = true)
    obtain ⟨hykind, hyname⟩ : y.kind = .domain ∧ y.name = name := by simpa using List.find?_some hy
    obtain rfl := hall.2 y (c.mem_results_of_soFar (List.mem_of_find?_eq_some hy))
      (hykind.trans hkind.symm) (hyname.trans hname.symm)
    exact ⟨y, hy, hdeleted⟩

/-- **What becomes of a stale network or pool on a calm host**: it fails if a domain that is not stale stands in
its way, and is deleted otherwise. -/
theorem rest_of_calm (hk : k ≠ .domain) (hname : name ∈ c.stale k) :
    ∃ x : Result, x.IsSole c.results ∧ x.kind = k.resource ∧ x.name = name ∧
      ((∃ n r, c.cleared.tables.get? .domain n = some r ∧ n ∉ c.stale .domain ∧
          Removal.Blocks r.document k name) → x.outcome = .failed) ∧
      ((¬ ∃ n r, c.cleared.tables.get? .domain n = some r ∧ n ∉ c.stale .domain ∧
          Removal.Blocks r.document k name) → x.outcome = .deleted) := by
  have hblocked : Removal.IsBlocked c.cleared.tables c.soFar k name ↔
      ∃ n r, c.cleared.tables.get? .domain n = some r ∧ n ∉ c.stale .domain ∧
        Removal.Blocks r.document k name := by
    simp only [Removal.IsBlocked, ← c.wasRemoved_iff hm hplain hvalid, Bool.not_eq_true]
  have hthere : ∀ s ∈ c.rest, (c.cleared.tables.get? s.1 s.2).isSome = true := by
    rintro ⟨l, other⟩ hs
    obtain ⟨hl, hother⟩ := c.mem_rest_iff.1 hs
    obtain ⟨-, hthere, hundeclared⟩ := c.mem_stale hplain hvalid hother
    rw [c.get?_cleared (fun h => absurd h hl), c.get?_powered hplain (fun h => absurd h hl),
      c.get?_filled hplain hvalid (by rintro rfl; exact hundeclared),
      c.get?_wired hplain (by rintro rfl; exact hundeclared)]
    exact hthere
  obtain ⟨x, hsole, hkind, hx, hfailed, hdeleted⟩ := Removal.run_of_calm (c.follows_cleared.calm hm)
    c.nodup_rest hthere (congrArg Prod.fst c.runs_rest) (c.mem_rest_iff.2 ⟨hk, hname⟩)
  refine ⟨x, c.isSole_of_stale hplain hvalid ?_ hkind (hx ▸ hname), hkind, hx,
    fun h => hfailed (hblocked.2 h), fun h => hdeleted fun hb => h (hblocked.1 hb)⟩
  cases k
  · exact hsole
  · exact hsole
  · exact absurd rfl hk

/-- **Of the domains that are not stale each keeps its document, or it is declared and its document is
replaced** because it does not match the declared one; but no dry run replaces one. -/
theorem document_cleared (hname : name ∉ c.stale .domain) :
    (c.cleared.tables.get? .domain name).map (·.document) =
        (m.tables.get? .domain name).map (·.document) ∨
      dry = false ∧ ∃ y ∈ d.domains.items, y.name = name ∧ y.written = .ok y.document.print ∧
        (c.cleared.tables.get? .domain name).map (·.document) = some y.document.print ∧
        ∀ r, m.tables.get? .domain name = some r →
          documentsMatch y.document.print r.document = false := by
  rw [c.get?_cleared (fun _ => hname)]
  by_cases hdeclared : name ∈ d.names .domain
  · obtain ⟨y, hy, rfl⟩ := List.mem_map.1 hdeclared
    obtain ⟨x, -, -, -, ⟨-, -, hsame⟩ | ⟨-, -, hwritten, hentry⟩⟩ := c.domain_of_calm hm hplain hvalid hy
    · exact .inl (congrArg _ hsame)
    · rw [hentry]
      cases dry with
      | true =>
        left
        cases m.tables.get? .domain y.name with
        | none => rfl
        | some r =>
          simp only [if_true, Option.map_some]
          split <;> simp
      | false =>
        simp only [Bool.false_eq_true, if_false, Option.map_some]
        cases hold : m.tables.get? .domain y.name with
        | none =>
          refine .inr ⟨trivial, y, hy, rfl, hwritten, ?_, fun r hr => absurd hr (by simp)⟩
          rw [Domain.settled, Domain.document_powered]
        | some r =>
          rw [Domain.settled, Domain.document_powered, Domain.document_stored,
            StoredResource.documented]
          -- a document that matches is kept
          cases hmatch : documentsMatch y.document.print r.document with
          | true => exact .inl (by simp)
          | false =>
            refine .inr ⟨trivial, y, hy, rfl, hwritten, by simp, fun r' hr' => ?_⟩
            obtain rfl := Option.some.inj hr'
            exact hmatch
  · left
    rw [c.get?_powered hplain (fun _ => hdeclared), c.get?_filled hplain hvalid (by simp),
      c.get?_wired hplain (by simp)]

end Desired.Course

/-- **A declared document stands in the way of nothing but what is declared.** -/
theorem Desired.Validates.mem_names_of_blocks {d : Desired} (hvalid : d.Validates) (hplain : d.IsPlain)
    {y : Domain} (hy : y ∈ d.domains.items) {k : DefinedKind} {name : String}
    (hmanaged : d.manages k = true) (h : Removal.Blocks y.document.print k name) : name ∈ d.names k := by
  have hread := (Removal.blocks_iff (Domain.legible (hplain.domain hy)).read?_print k name).1 h
  have hresolves : ∀ {α : Type} {x : Declared α} {nameOf : α → String}, x.isManaged = true →
      Audit.resolves x nameOf name = true → name ∈ x.items.map nameOf := by
    intro α x nameOf hx hresolved
    cases x with
    | unmanaged assumed => exact absurd hx (by simp [Declared.isManaged])
    | managed items =>
      obtain ⟨a, ha, hname⟩ := List.any_eq_true.1 hresolved
      exact List.mem_map.2 ⟨a, ha, by simpa using hname⟩
  cases k with
  | network =>
    obtain ⟨i, hi, rfl⟩ := Domain.mem_networkReferences (hplain.domain hy) (List.contains_iff_mem.1 hread)
    exact hresolves hmanaged (hvalid.network_resolves hy hi)
  | pool =>
    obtain ⟨k, hk, rfl⟩ := Domain.mem_poolReferences (hplain.domain hy) (List.contains_iff_mem.1 hread)
    exact hresolves hmanaged (hvalid.pool_resolves hy hk)
  | domain => exact absurd hread (by simp [References.uses])

end VirtualTopology
