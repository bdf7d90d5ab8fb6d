import VirtualTopology.Proofs.Completeness
import VirtualTopology.Proofs.Pass.Endings
import VirtualTopology.Proofs.Pass.Exchange
import VirtualTopology.Proofs.Pass.Turns

/-!
# Passes that report

Whatever a host replies, a pass over a desired state that validates gives a report: each problem that is met in the
work on a resource is told as a failure of the resource, and the other resources are still seen to. There is one
exception: if a text has to be written that cannot be written, then there is no report
(`Settings.reports_or_unwritable`, `Settings.no_report_withControlCharacter`).

The host is anyone who answers. What a pass tells is compared with what was exchanged in it (`Dialogue.Attests`).
-/

namespace VirtualTopology

open Dialogue

/-! ### What is told of problems -/

/-- Whether a result says that its resource failed for a reason. -/
def Result.FailsFor (x : Result) (reason : String) : Prop := x.outcome = .failed ∧ x.reason = some reason

namespace Desired

variable {d : Desired} {dry : Bool} {xs ys zs : List (Exchange Query Query.Reply)} {rs rs' : List Result}
  {r r' : Recorded}

/-- What a call of a pass is for: the resource that is worked on. The definitions of domains are also read to see
whether stale networks and pools are in use. -/
inductive Concerns (d : Desired) (dry : Bool) : Call → ResourceKind × String → Prop where
  | network {n : Network} (declared : n ∈ d.networks.items) {c : Call} (makes : n.started.Makes dry c) :
      Concerns d dry c (.network, n.name)
  | pool {p : Pool} (declared : p ∈ d.pools.items) {c : Call} (makes : p.started.Makes dry c) :
      Concerns d dry c (.pool, p.name)
  | contents {p : Pool} (declared : p ∈ d.pools.items) {e : VolumeEntry} (listed : e ∈ p.volumes) :
      Concerns d dry (.listVolumes p.name) (.volume, e.label p.name)
  | volume {p : Pool} (declared : p ∈ d.pools.items) {e : VolumeEntry} (listed : e ∈ p.volumes) {c : Call}
      (makes : e.Makes dry p.name c) : Concerns d dry c (.volume, e.label p.name)
  | domain {x : Domain} (declared : x ∈ d.domains.items) {c : Call} (makes : x.Makes c) :
      Concerns d dry c (.domain, x.name)
  | removal {k : DefinedKind} {name : String} (undeclared : name ∉ d.names k) {c : Call}
      (proper : c.IsProper dry k name) : Concerns d dry c (k.resource, name)
  | check {k : DefinedKind} {name domain : String} (undeclared : name ∉ d.names k) :
      Concerns d dry (.read .domain domain) (k.resource, name)

/-- Whether a declared text cannot be written. -/
def IsUnwritable (d : Desired) : Prop :=
  (∃ n ∈ d.networks.items, ∃ why, n.written = .error why) ∨
    (∃ p ∈ d.pools.items, (∃ why, p.written = .error why) ∨ ∃ e ∈ p.volumes, e.IsUnwritable) ∨
      ∃ x ∈ d.domains.items, ∃ why, x.written = .error why

/-- Whether results tell of a problem, if an exchange is one. -/
structure Heeded (d : Desired) (dry : Bool) (x : Exchange Query Query.Reply) (rs : List Result) : Prop where
  /-- The resource for which a call was made fails for the reason of the problem. -/
  call : ∀ c, x.query = .call c → (∀ k, c ≠ .list k) → ∀ reason, x.IsProblem reason →
    ∃ y ∈ rs, y.FailsFor reason ∧ d.Concerns dry c y.key
  /-- If a kind cannot be listed, everything that is declared of it fails, or everything for whose removal the list
  was needed. -/
  list : ∀ k e, x = ⟨.call (.list k), .error e⟩ →
    (∀ name ∈ d.names k, ∃ y ∈ rs, y.key = (k.resource, name) ∧ y.FailsFor e.message) ∨
      ∃ y ∈ rs, y.FailsFor e.message ∧ y.operation = some Operation.checkReferences.word

/-- Whether results tell of all problems that were met, and of cancellations only if there was one. -/
structure Heeds (d : Desired) (dry : Bool) (xs : List (Exchange Query Query.Reply)) (rs : List Result) : Prop where
  heeded : ∀ x ∈ xs, d.Heeded dry x rs
  cancelled : ∀ y ∈ rs, y.outcome = .cancelled → ⟨.cancelled, true⟩ ∈ xs

/-- Whether what is recorded tells of the problems that were met, or there is cause for it to be missing. -/
structure Reports (d : Desired) (dry : Bool) (xs : List (Exchange Query Query.Reply)) (r : Recorded) : Prop where
  heeds : ∀ rs, r = .ok rs → d.Heeds dry xs rs
  unwritable : ∀ why, r = .error why → d.IsUnwritable ∨ ∃ x ∈ xs, x.IsTooLong

/-- More results tell of no less. -/
theorem Heeded.mono {x : Exchange Query Query.Reply} (h : d.Heeded dry x rs) (hsub : ∀ y ∈ rs, y ∈ rs') :
    d.Heeded dry x rs' := by
  refine ⟨fun c hc hlist reason hproblem => ?_, fun k e hx => ?_⟩
  · obtain ⟨y, hy, htold⟩ := h.call c hc hlist reason hproblem
    exact ⟨y, hsub y hy, htold⟩
  · refine (h.list k e hx).imp (fun hall name hname => ?_) ?_
    · obtain ⟨y, hy, htold⟩ := hall name hname
      exact ⟨y, hsub y hy, htold⟩
    · rintro ⟨y, hy, htold⟩
      exact ⟨y, hsub y hy, htold⟩

/-- An exchange that is no problem is heeded by any results. -/
theorem Heeded.of_not_isProblem {x : Exchange Query Query.Reply} (h : ∀ reason, ¬ x.IsProblem reason) :
    d.Heeded dry x rs := by
  refine ⟨fun c _ _ reason hproblem => absurd hproblem (h reason), fun k e hx => ?_⟩
  subst hx
  exact absurd (.failed _ e) (h e.message)

/-- Results in another order tell the same. -/
theorem Heeds.of_mem (h : d.Heeds dry xs rs) (hmem : ∀ y, y ∈ rs ↔ y ∈ rs') : d.Heeds dry xs rs' :=
  ⟨fun x hx => (h.heeded x hx).mono fun y => (hmem y).1, fun y hy => h.cancelled y ((hmem y).2 hy)⟩

/-- Results of two parts of a pass tell of the problems of both. -/
theorem Heeds.append (h : d.Heeds dry xs rs) (h' : d.Heeds dry ys rs') (hmem : ∀ x, x ∈ zs ↔ x ∈ xs ∨ x ∈ ys) :
    d.Heeds dry zs (rs ++ rs') := by
  refine ⟨fun x hx => ?_, fun y hy hcancelled => (hmem _).2 ?_⟩
  · rcases (hmem x).1 hx with hx | hx
    · exact (h.heeded x hx).mono fun y => List.mem_append_left _
    · exact (h'.heeded x hx).mono fun y => List.mem_append_right _
  · exact (List.mem_append.1 hy).imp (fun hy => h.cancelled y hy hcancelled) fun hy => h'.cancelled y hy hcancelled

/-- Results that tell of no cancellation, where nothing was asked. -/
theorem Heeds.of_nil (h : ∀ y ∈ rs, y.outcome ≠ .cancelled) : d.Heeds dry [] rs :=
  ⟨by simp, fun y hy hcancelled => absurd hcancelled (h y hy)⟩

namespace Reports

theorem ok (h : d.Heeds dry xs rs) : d.Reports dry xs (.ok rs) :=
  ⟨fun _ hrs => Except.ok.inj hrs ▸ h, fun _ hr => absurd hr (by simp)⟩

theorem nil : d.Reports dry [] (.ok []) := ok (.of_nil (by simp))

/-- **What is recorded in two parts of a pass** tells of the problems of both. -/
theorem append (h : d.Reports dry xs r) (h' : d.Reports dry ys r') (hmem : ∀ x, x ∈ zs ↔ x ∈ xs ∨ x ∈ ys) :
    d.Reports dry zs (r.append r') := by
  have hcause : ∀ ws : List (Exchange Query Query.Reply), (∀ x ∈ ws, x ∈ zs) →
      (d.IsUnwritable ∨ ∃ x ∈ ws, x.IsTooLong) → d.IsUnwritable ∨ ∃ x ∈ zs, x.IsTooLong := by
    rintro ws hws (hdeclared | ⟨x, hx, hlong⟩)
    · exact .inl hdeclared
    · exact .inr ⟨x, hws x hx, hlong⟩
  constructor
  · intro zs hzs
    obtain ⟨us, vs, hus, hvs, rfl⟩ := Recorded.append_eq_ok_iff.1 hzs
    exact (h.heeds us hus).append (h'.heeds vs hvs) hmem
  · intro why hwhy
    cases r with
    | error why' => exact hcause xs (fun x hx => (hmem x).2 (.inl hx)) (h.unwritable why' rfl)
    | ok us =>
      cases r' with
      | error why' => exact hcause ys (fun x hx => (hmem x).2 (.inr hx)) (h'.unwritable why' rfl)
      | ok vs => exact absurd hwhy (by simp [Recorded.append, Except.bind, Except.map])

/-- Without results, only the cause matters. -/
theorem error {why : Unwritable} (h : d.Reports dry xs (.error why)) (hmem : ∀ x ∈ xs, x ∈ ys) :
    d.Reports dry ys (.error why) := by
  refine ⟨fun _ hrs => absurd hrs (by simp), fun why' _ => ?_⟩
  rcases h.unwritable why rfl with hdeclared | ⟨x, hx, hlong⟩
  · exact .inl hdeclared
  · exact .inr ⟨x, hmem x hx, hlong⟩

end Reports

end Desired

/-! ### Work that ends well -/

section

open Work

/-- Work that ends well on a network or a pool has a result that says so. -/
theorem Started.comesTo_success (s : Started) (dry exists_ : Bool) :
    ComesTo (fun a => a.1.outcome.isSuccess = true) (fun _ => True) (s.sync dry exists_) := by
  have hresult : ∀ p, (s.result p).outcome.isSuccess = true := fun p => by
    unfold result
    dsimp only
    split
    · rfl
    · split <;> rfl
  refine ⟨(s.frank_makes dry exists_).confined.mono (fun _ _ => trivial) fun a ha => ?_⟩
  refine ⟨fun x hx => ?_, fun _ _ => trivial⟩
  obtain ⟨⟨p, hp⟩, -⟩ := ha x hx
  rw [hp]
  exact hresult p

/-- Work that ends well on a volume has a result that says so. -/
theorem VolumeEntry.comesTo_success (e : VolumeEntry) (dry : Bool) (pool : String) (exists_ : Bool) :
    ComesTo (fun x => x.outcome.isSuccess = true) (fun _ => True) (e.sync dry pool exists_) := by
  have hdone : ∀ {outcome : Outcome} {details : List String}, outcome.isSuccess = true →
      ComesTo (fun x => x.outcome.isSuccess = true) (fun _ => True)
        (pure (e.done pool outcome details) : Work Result) := fun h => .pure h
  unfold sync
  split
  · split
    · exact hdone rfl
    · next v _ =>
      split
      · rw [adjust_eq]
        refine .seq (comesTo_true _) fun document => ?_
        rcases weigh_cases e pool v document with ⟨x, hweigh⟩ | ⟨x, -, -, ⟨-, hweigh⟩ | ⟨size, text, -, -, hweigh⟩⟩
        · rw [hweigh]
          exact .throw trivial
        · rw [hweigh]
          exact hdone rfl
        · rw [hweigh]
          exact .seq (comesTo_true _) fun _ => .seq (comesTo_true _) fun said => hdone rfl
      · exact .seq (comesTo_true _) fun text => .seq (comesTo_true _) fun _ => hdone rfl
  · split
    · exact .seq (comesTo_true _) fun _ => hdone rfl
    · exact hdone rfl

/-- Work that ends well on a domain has a result that says so. -/
theorem Domain.comesTo_success (x : Domain) (dry : Bool) (timeout : Binary64) (exists_ : Bool) :
    ComesTo (fun y => y.outcome.isSuccess = true) (fun _ => True) (x.sync dry timeout exists_) := by
  -- details never make a failure of a success
  have hfinal : ∀ {outcome : Outcome} (details : List String), outcome.isSuccess = true →
      (finalOutcome outcome details).isSuccess = true := fun details h => by
    unfold finalOutcome
    split
    · rfl
    · exact h
  have hstore : ComesTo (fun a => a.1.isSuccess = true) (fun _ => True) (x.store dry exists_) := by
    unfold store
    refine .seq (comesTo_true _) fun text => ?_
    split
    · refine .seq (comesTo_true _) fun stored => ?_
      split
      · exact .pure rfl
      · exact .seq (comesTo_true _) fun _ => .pure rfl
    · exact .seq (comesTo_true _) fun _ => .pure rfl
  rw [sync_eq]
  refine hstore.bind fun a ha => ?_
  have hcarry : ∀ running, ComesTo (fun y => y.outcome.isSuccess = true) (fun _ => True) (do
      let details := a.2 ++ (← x.power dry timeout a.1 running)
      return ({ kind := .domain, name := x.name, outcome := finalOutcome a.1 details, details } : Result)) :=
    fun running => .seq (comesTo_true _) fun said => .pure (by exact hfinal _ ha)
  unfold finish
  dsimp only
  split
  · exact .seq (comesTo_true _) hcarry
  · exact .seq (comesTo_true _) hcarry

end

/-! ### Supervised work -/

/-- What is recorded of supervised work, given the result of its value. -/
def Ending.told {α : Type} (result : α → Result) : Ending α → Recorded
  | finished a => .ok [result a]
  | failed x | cancelled x => .ok [x]
  | unwritable why => .error why

theorem Ending.told_id (ending : Ending Result) : ending.told id = ending.recorded := by
  cases ending <;> rfl

namespace Desired

open Work

variable {d : Desired} {dry : Bool} {C : Prop} {α : Type} {v : Work α} {result : α → Result} {kind : ResourceKind}
  {name : String} {rs : List Result}

/-- The work on a resource lists no kind. -/
theorem Concerns.ne_list {c : Call} {key : ResourceKind × String} (h : d.Concerns dry c key) (k : DefinedKind) :
    c ≠ .list k := by
  rintro rfl
  generalize hc : Call.list k = c at h
  have habout : ∀ {l : DefinedKind} {name : String}, c.IsAbout l name → False := fun h => by
    subst hc
    exact absurd h (by simp [Call.IsAbout, Call.target])
  cases h with
  | network _ makes => cases makes <;> first | exact habout ‹_› | cases hc
  | pool _ makes => cases makes <;> first | exact habout ‹_› | cases hc
  | contents => cases hc
  | volume _ _ makes => cases makes <;> cases hc
  | domain _ makes => cases makes <;> first | exact habout ‹_› | cases hc
  | removal _ proper => exact habout proper.about
  | check => cases hc

/-- **Supervised work reports**: a problem that is met in it is told as the failure of its resource. -/
theorem reports_supervise {e : Except Trouble α → Prop} (howns : OwnsUp C v) (hC : C → d.IsUnwritable)
    (hcalls : v.run.Confined (Query.CallsOnly fun c => d.Concerns dry c (kind, name)) e)
    (hsuccess : ComesTo (fun a => (result a).outcome.isSuccess = true) (fun _ => True) v) :
    (supervise kind name v).Attests fun xs ending => d.Reports dry xs (ending.told result) := by
  have hasked : ∀ (b : Bool) (rs : List Result), d.Heeded dry ⟨.cancelled, b⟩ rs := fun b rs =>
    .of_not_isProblem fun reason => Exchange.not_isProblem (by simp)
  rw [supervise_eq]
  refine Attests.bind (Attests.query (P := fun xs b => xs = [⟨.cancelled, b⟩]) fun _ => rfl) ?_
  rintro _ b rfl
  -- a task that is cancelled asks for nothing else
  cases b with
  | true =>
    refine Attests.pure (.ok ⟨fun x hx => ?_, fun y _ _ => List.mem_cons_self⟩)
    obtain rfl := List.mem_singleton.1 hx
    exact hasked true _
  | false =>
    have hrun := (Attests.and howns (Attests.of_confined hcalls)).and (Attests.of_confined hsuccess.confined)
    refine Attests.bind hrun ?_
    rintro ys a ⟨⟨hown, hasks, -⟩, -, hvalue, -⟩
    refine Attests.pure ?_
    rw [List.append_nil]
    -- the work went well and met no problem, or stopped at one that its result tells, or had no text to write
    match a with
    | .ok b =>
      refine .ok ⟨fun x hx => ?_, fun y hy hcancelled => ?_⟩
      · rcases List.mem_cons.1 hx with rfl | hx
        · exact hasked false _
        · refine .of_not_isProblem fun reason hproblem => ?_
          obtain ⟨op, fk, herror⟩ := hown.told x hx reason hproblem
          exact absurd herror (by simp)
      · rw [List.mem_singleton.1 hy] at hcancelled
        have hgood := hvalue b rfl
        rw [hcancelled] at hgood
        exact absurd hgood (by simp [Outcome.isSuccess])
    | .error (.failed op reason fk) =>
      refine .ok ⟨fun x hx => ?_, fun y hy hcancelled => ?_⟩
      · rcases List.mem_cons.1 hx with rfl | hx
        · exact hasked false _
        · refine ⟨fun c hc _ reason' hproblem => ?_, fun k e hlist => ?_⟩
          · obtain ⟨op', fk', herror⟩ := hown.told x hx reason' hproblem
            obtain ⟨-, rfl, -⟩ := Trouble.failed.inj (Except.error.inj herror)
            have hconcerns := hasks x hx
            rw [hc] at hconcerns
            exact ⟨_, List.mem_cons_self, ⟨rfl, rfl⟩, hconcerns⟩
          · have hconcerns := hasks x hx
            rw [hlist] at hconcerns
            exact absurd rfl (Concerns.ne_list hconcerns k)
      · rw [List.mem_singleton.1 hy] at hcancelled
        exact absurd hcancelled (by simp [Result.stuck, Result.failure])
    | .error (.unwritable why) =>
      refine ⟨fun _ hrs => absurd hrs (by simp [Ending.of, Ending.told]), fun why' _ => ?_⟩
      rcases hown.unwritable why rfl with hcause | ⟨x, hx, hlong⟩
      · exact .inl (hC hcause)
      · exact .inr ⟨x, List.mem_cons_of_mem _ hx, hlong⟩

/-- Recorded work reports. -/
theorem reports_recorded {v : Work Result} {e : Except Trouble Result → Prop} (howns : OwnsUp C v)
    (hC : C → d.IsUnwritable)
    (hcalls : v.run.Confined (Query.CallsOnly fun c => d.Concerns dry c (kind, name)) e)
    (hsuccess : ComesTo (fun x => x.outcome.isSuccess = true) (fun _ => True) v) :
    (do let ending ← supervise kind name v; return ending.recorded : Talk Recorded).Attests (d.Reports dry) := by
  have hreports : (supervise kind name v).Attests fun xs ending => d.Reports dry xs (ending.told id) :=
    reports_supervise howns hC hcalls hsuccess
  refine Attests.bind hreports fun xs ending h => ?_
  refine Attests.pure ?_
  rw [List.append_nil, ← ending.told_id]
  exact h

/-! ### Tasks -/

/-- **Tasks one after the other report** what each of them reports. -/
theorem reports_gather {ts : List (Talk Recorded)} (h : ∀ t ∈ ts, t.Attests (d.Reports dry)) :
    (gather ts).Attests (d.Reports dry) := by
  induction ts with
  | nil => exact Attests.pure .nil
  | cons t ts ih =>
    refine (h t List.mem_cons_self).bind fun xs r hr => ?_
    refine (ih fun t ht => h t (List.mem_cons_of_mem _ ht)).bind fun ys rs hrs => Attests.pure ?_
    refine hr.append hrs fun x => ?_
    rw [List.append_nil, List.mem_append]

theorem reports_network {n : Network} (hn : n ∈ d.networks.items) (exists_ : Bool) :
    (n.task dry exists_).Attests (d.Reports dry) := by
  have hsync := n.frank_makes dry exists_
  unfold Network.task
  refine reports_recorded (C := ∃ why, n.started.text = .error why) ?_ (fun ⟨why, h⟩ => .inl ⟨n, hn, why, h⟩)
    (hsync.confined.mono (fun _ hq => hq.mono fun c => .network hn) fun _ => id) ?_
  · rw [map_eq_pure_bind]
    exact (n.started.ownsUp_sync dry exists_).bind fun a => .pure a.1
  · rw [map_eq_pure_bind]
    exact (n.started.comesTo_success dry exists_).bind fun a ha => .pure ha

/-- Failures that are told where nothing was asked. -/
theorem reports_failures (h : ∀ y ∈ rs, y.outcome = .failed) : d.Reports dry [] (.ok rs) :=
  .ok (.of_nil fun y hy => by simp [h y hy])

theorem failed_of_mem_volumesFailed {p : Pool} {operation : Operation} {reason : String} {fk : FailureKind} :
    ∀ y ∈ p.volumesFailed operation reason fk, y.outcome = .failed :=
  List.forall_mem_map.2 fun _ _ => rfl

theorem reports_syncVolumes {p : Pool} (hp : p ∈ d.pools.items) (there : List String) {es : List VolumeEntry}
    (hes : ∀ e ∈ es, e ∈ p.volumes) : (p.syncVolumes dry there es).Attests (d.Reports dry) := by
  induction es with
  | nil => exact Attests.pure .nil
  | cons e es ih =>
    have hlisted := hes e List.mem_cons_self
    have hvolume := reports_recorded (e.ownsUp_sync dry p.name (there.contains e.name))
      (fun h => .inr (.inl ⟨p, hp, .inr ⟨e, hlisted, h⟩⟩))
      ((e.frank_makes dry p.name _).confined.mono (fun _ hq => hq.mono fun c => .volume hp hlisted) fun _ => id)
      (e.comesTo_success dry p.name _)
    rw [Pool.syncVolumes_cons]
    refine Attests.bind hvolume fun xs r hr => ?_
    cases r with
    | error why =>
      -- the entries behind this one are left out
      refine Attests.pure ?_
      rw [List.append_nil]
      exact hr
    | ok r =>
      refine Attests.bind (ih fun e he => hes e (List.mem_cons_of_mem _ he)) fun ys rs hrs => Attests.pure ?_
      refine hr.append hrs fun x => ?_
      rw [List.append_nil, List.mem_append]

theorem reports_syncContents {p : Pool} (hp : p ∈ d.pools.items) (readable : Bool) :
    (p.syncContents dry readable).Attests (d.Reports dry) := by
  unfold Pool.syncContents
  split
  · exact Attests.pure .nil
  · next hsome =>
    split
    · refine Attests.bind (Attests.query (P := fun xs r => xs = [⟨.call (.listVolumes p.name), r⟩]) fun _ => rfl) ?_
      rintro _ reply rfl
      cases reply with
      | ok there =>
        refine Attests.mono (reports_syncVolumes hp there fun _ => id) fun ys rs hrs => ?_
        have hlist : d.Reports dry [⟨.call (.listVolumes p.name), .ok there⟩] (.ok []) := by
          refine .ok ⟨fun x hx => ?_, by simp⟩
          obtain rfl := List.mem_singleton.1 hx
          exact .of_not_isProblem fun reason => Exchange.not_isProblem_ok (by simp)
        have hall : d.Reports dry ([⟨.call (.listVolumes p.name), .ok there⟩] ++ ys) (Recorded.append (.ok []) rs) :=
          hlist.append hrs fun x => List.mem_append
        rwa [show Recorded.append (.ok []) rs = rs by cases rs <;> rfl] at hall
      | error e =>
        refine Attests.pure (.ok ⟨fun x hx => ?_, fun y hy hcancelled => ?_⟩)
        · obtain rfl := List.mem_singleton.1 hx
          refine ⟨fun c hc _ reason hproblem => ?_, fun k e' hlist => absurd hlist (by simp)⟩
          obtain rfl := Query.call.inj hc
          rw [Exchange.eq_of_isProblem_error hproblem]
          -- a pool whose contents are listed has volumes, and all of them fail
          obtain ⟨v, hv⟩ := List.exists_mem_of_ne_nil p.volumes fun h => hsome (by rw [h]; rfl)
          exact ⟨_, List.mem_map_of_mem hv, ⟨rfl, rfl⟩, .contents hp hv⟩
        · exact absurd (hcancelled.symm.trans (failed_of_mem_volumesFailed y hy)) (by simp)
    · exact reports_syncVolumes hp [] fun _ => id

/-- **The task for a pool reports**: what is met in the work on the pool is told of the pool, and what is met in the
work on a volume is told of the volume. -/
theorem reports_pool {p : Pool} (hp : p ∈ d.pools.items) (exists_ : Bool) :
    (p.task dry exists_).Attests (d.Reports dry) := by
  have hfrank := p.started.frank_makes dry exists_
  have hpool : (supervise .pool p.name (p.started.sync dry exists_)).Attests fun xs ending =>
      d.Reports dry xs (ending.told (·.1)) := reports_supervise (p.started.ownsUp_sync dry exists_)
    (fun ⟨why, h⟩ => .inr (.inl ⟨p, hp, .inl ⟨why, h⟩⟩))
    (hfrank.confined.mono (fun _ hq => hq.mono fun c => .pool hp) fun _ => id)
    (p.started.comesTo_success dry exists_)
  unfold Pool.task
  refine Attests.bind (hpool.and (Attests.of_confined hfrank.confined_supervise)) ?_
  rintro xs ending ⟨htold, -, hending⟩
  -- the volumes follow if the pool is in line; if it failed they are lost, and if it was cancelled they were not begun
  cases ending with
  | finished x =>
    refine Attests.bind (reports_syncContents hp x.2) fun ys rs hrs => Attests.pure ?_
    refine htold.append hrs fun x => ?_
    rw [List.append_nil, List.mem_append]
  | failed x =>
    have hlost : d.Reports dry [] (.ok p.volumesLost) := reports_failures failed_of_mem_volumesFailed
    exact Attests.pure (htold.append hlost fun x => by simp)
  | cancelled x =>
    obtain rfl : x = .cancelled .pool p.name := by
      rcases hending with ⟨a, h, -⟩ | ⟨op, reason, fk, h⟩ | h | ⟨why, h⟩
      · exact absurd h (by simp)
      · exact absurd h (by simp)
      · exact Ending.cancelled.inj h
      · exact absurd h (by simp)
    have hcancelled := (htold.heeds _ rfl).cancelled _ List.mem_cons_self rfl
    refine Attests.pure (.ok ⟨fun x hx => ?_, fun y _ _ => ?_⟩)
    · rw [List.append_nil] at hx
      refine ((htold.heeds _ rfl).heeded x hx).mono fun y hy => ?_
      rw [List.mem_singleton.1 hy]
      exact List.mem_cons_self
    · rw [List.append_nil]
      exact hcancelled
  | unwritable why =>
    refine Attests.pure ?_
    rw [List.append_nil]
    exact htold

/-- The task for a domain reports: a domain that depends on something that failed is not worked on. -/
theorem reports_domain {x : Domain} (hx : x ∈ d.domains.items) (timeout : Binary64) (before : List Result)
    (exists_ : Bool) : (x.task dry timeout before exists_).Attests (d.Reports dry) := by
  unfold Domain.task
  dsimp only
  split
  · have hfrank := x.frank_makes dry timeout exists_
    have howns := x.ownsUp_sync dry timeout exists_
    have hsuccess := x.comesTo_success dry timeout exists_
    -- the work stays closed: a restart waits through very many looks
    generalize x.sync dry timeout exists_ = work at hfrank howns hsuccess ⊢
    exact reports_recorded howns (fun ⟨why, h⟩ => .inr (.inr ⟨x, hx, why, h⟩))
      (hfrank.confined.mono (fun _ hq => hq.mono fun c => .domain hx) fun _ => id) hsuccess
  · refine Attests.pure (reports_failures fun y hy => ?_)
    rw [List.mem_singleton.1 hy]
    rfl

/-- The removal of a domain reports. -/
theorem reports_removal {name : String} (hname : name ∉ d.names .domain) :
    (Domain.removal dry name).Attests (d.Reports dry) := by
  rw [Domain.removal_eq]
  refine reports_recorded (Domain.ownsUp_remove (C := False) dry name) False.elim
    ((Domain.frank_remove dry name).confined.mono (fun _ hq => hq.mono fun c => .removal hname) fun _ => id) ?_
  exact .seq (comesTo_true _) fun running => .seq (comesTo_true _) fun _ => .pure rfl

/-- The removal of a network or a pool reports: one that is in use is told to be so. -/
theorem reports_remove {kind : DefinedKind} {name : String} (hname : name ∉ d.names kind) (refs : List References) :
    (Removal.task dry refs kind name).Attests (d.Reports dry) := by
  rw [Removal.task_eq]
  split
  · refine reports_recorded (C := False) (Removal.ownsUp_remove dry kind name) False.elim
      ((Removal.frank_remove dry kind name).confined.mono (fun _ hq => hq.mono fun c => .removal hname)
        fun _ => id) ?_
    exact .seq (comesTo_true _) fun _ => .pure rfl
  · refine Attests.pure (reports_failures fun y hy => ?_)
    rw [List.mem_singleton.1 hy]
    rfl

end Desired

/-! ### Removals -/

namespace Removal

/-- What is exchanged to see what domains refer to: domains are listed and read, and a call that fails is the reason
why it is not known. -/
structure Sees (xs : List (Exchange Query Query.Reply)) (v : Except String (List References)) : Prop where
  asked : ∀ x ∈ xs, x.query = .call (.list .domain) ∨ ∃ name, x.query = .call (.read .domain name)
  told : ∀ x ∈ xs, ∀ reason, x.IsProblem reason → v = .error reason

theorem Sees.cons {x : Exchange Query Query.Reply} {xs : List (Exchange Query Query.Reply)}
    {v : Except String (List References)}
    (hasked : x.query = .call (.list .domain) ∨ ∃ name, x.query = .call (.read .domain name))
    (htold : ∀ reason, x.IsProblem reason → v = .error reason) (h : Sees xs v) : Sees (x :: xs) v :=
  ⟨List.forall_mem_cons.2 ⟨hasked, h.asked⟩, List.forall_mem_cons.2 ⟨htold, h.told⟩⟩

theorem Sees.nil {v : Except String (List References)} : Sees [] v := ⟨by simp, by simp⟩

theorem attests_referencesOf (results : List Result) (domains : List String) :
    (referencesOf results domains).Attests Sees := by
  induction domains with
  | nil => exact Attests.pure .nil
  | cons domain domains ih =>
    unfold referencesOf
    split
    · exact ih
    · refine Attests.bind (Attests.query (P := fun xs r => xs = [⟨.call (.read .domain domain), r⟩]) fun _ => rfl) ?_
      rintro _ reply rfl
      cases reply with
      | error e =>
        refine Attests.pure (.cons (.inr ⟨domain, rfl⟩) (fun reason hproblem => ?_) .nil)
        rw [Exchange.eq_of_isProblem_error hproblem]
      | ok document =>
        have hfine : ∀ reason, ¬ Exchange.IsProblem ⟨.call (.read .domain domain), .ok document⟩ reason :=
          fun reason => Exchange.not_isProblem_ok (by simp)
        dsimp only
        split
        · exact Attests.pure (.cons (.inr ⟨domain, rfl⟩) (fun reason h => absurd h (hfine reason)) .nil)
        · refine Attests.bind ih fun ys rest hrest => Attests.pure ?_
          rw [List.append_nil]
          refine .cons (.inr ⟨domain, rfl⟩) (fun reason h => absurd h (hfine reason)) ⟨hrest.asked, ?_⟩
          intro x hx reason hproblem
          rw [hrest.told x hx reason hproblem]
          rfl

theorem attests_references (results : List Result) : (references results).Attests Sees := by
  unfold references
  refine Attests.bind (Attests.query (P := fun xs r => xs = [⟨.call (.list .domain), r⟩]) fun _ => rfl) ?_
  rintro _ reply rfl
  cases reply with
  | error e =>
    refine Attests.pure (.cons (.inl rfl) (fun reason hproblem => ?_) .nil)
    rw [Exchange.eq_of_isProblem_error hproblem]
  | ok domains =>
    refine Attests.mono (attests_referencesOf results domains) fun ys v hv => .cons (.inl rfl) (fun reason h => ?_) hv
    exact absurd h (Exchange.not_isProblem_ok (by simp))

end Removal

namespace Desired

variable {d : Desired} {dry : Bool} {rs : List Result}

/-- **Removing networks and pools reports**: what keeps the references from being known is told of all that was to be
removed. -/
theorem reports_rest {stale : List (DefinedKind × String)} (hstale : ∀ s ∈ stale, s.2 ∉ d.names s.1)
    (results : List Result) : (Removal.run dry results stale).Attests (d.Reports dry) := by
  unfold Removal.run
  split
  · exact Attests.pure .nil
  · next hsome =>
    refine Attests.bind (Attests.query (P := fun xs b => xs = [⟨.cancelled, b⟩]) fun _ => rfl) ?_
    rintro _ b rfl
    have hasked : ∀ rs, d.Heeded dry ⟨.cancelled, b⟩ rs := fun rs =>
      .of_not_isProblem fun reason => Exchange.not_isProblem (by simp)
    cases b with
    | true =>
      refine Attests.pure (.ok ⟨fun x hx => ?_, fun y _ _ => List.mem_cons_self⟩)
      obtain rfl := List.mem_singleton.1 hx
      exact hasked _
    | false =>
      refine Attests.bind (Removal.attests_references results) fun ys refs hrefs => ?_
      -- a domain that cannot be read is told of everything that was to be removed, for all of it may be in use there
      cases refs with
      | error reason =>
        refine Attests.pure (.ok ⟨fun x hx => ?_, fun y hy hcancelled => ?_⟩)
        · rw [List.append_nil] at hx
          rcases List.mem_cons.1 hx with rfl | hx
          · exact hasked _
          · obtain ⟨s, hs⟩ := List.exists_mem_of_ne_nil stale fun h => hsome (by rw [h]; rfl)
            refine ⟨fun c hc hlist reason' hproblem => ?_, fun k e hlist => .inr ?_⟩
            · obtain rfl := Except.error.inj (hrefs.told x hx reason' hproblem)
              refine ⟨_, List.mem_map_of_mem hs, ⟨rfl, rfl⟩, ?_⟩
              rcases hrefs.asked x hx with hdomains | ⟨domain, hdomain⟩
              · exact absurd (Query.call.inj (hc.symm.trans hdomains)) (hlist _)
              · rw [Query.call.inj (hc.symm.trans hdomain)]
                exact .check (hstale s hs)
            · subst hlist
              obtain rfl := Except.error.inj (hrefs.told _ hx _ (.failed _ e))
              exact ⟨_, List.mem_map_of_mem hs, ⟨rfl, rfl⟩, rfl⟩
        · obtain ⟨s, -, rfl⟩ := List.mem_map.1 hy
          exact absurd hcancelled (by simp [Result.stuck, Result.failure])
      | ok refs =>
        have hgather : (gather (stale.map fun s => Removal.task dry refs s.1 s.2)).Attests (d.Reports dry) :=
          reports_gather (List.forall_mem_map.2 fun s hs => reports_remove (hstale s hs) refs)
        refine Attests.mono hgather fun zs r hr => ?_
        have hseen : d.Reports dry (⟨.cancelled, false⟩ :: ys) (.ok []) := by
          refine .ok ⟨fun x hx => ?_, by simp⟩
          rcases List.mem_cons.1 hx with rfl | hx
          · exact hasked _
          · refine .of_not_isProblem fun reason hproblem => ?_
            exact absurd (hrefs.told x hx reason hproblem) (by simp)
        have hall : d.Reports dry ([⟨.cancelled, false⟩] ++ (ys ++ zs)) (Recorded.append (.ok []) r) :=
          hseen.append hr fun x => by simp [or_assoc]
        rwa [show Recorded.append (.ok []) r = r by cases r <;> rfl] at hall

end Desired

/-! ### The tasks for a kind -/

/-- Whether results, if there are any, are about what is told. -/
def Recorded.Mentions (keys : List (ResourceKind × String)) (r : Recorded) : Prop :=
  ∀ rs, r = .ok rs → ∀ key ∈ keys, ∃ y ∈ rs, y.key = key

namespace Recorded

variable {keys keys' : List (ResourceKind × String)} {r s : Recorded}

theorem Covers.mentions (h : r.Covers keys) : r.Mentions keys := fun rs hrs _ hkey =>
  List.mem_map.1 ((h rs hrs).symm.subset hkey)

theorem Mentions.append (h : r.Mentions keys) (h' : s.Mentions keys') : (r.append s).Mentions (keys ++ keys') := by
  intro rs hrs key hkey
  obtain ⟨xs, ys, hxs, hys, rfl⟩ := append_eq_ok_iff.1 hrs
  rcases List.mem_append.1 hkey with hkey | hkey
  · obtain ⟨y, hy, habout⟩ := h xs hxs key hkey
    exact ⟨y, List.mem_append_left _ hy, habout⟩
  · obtain ⟨y, hy, habout⟩ := h' ys hys key hkey
    exact ⟨y, List.mem_append_right _ hy, habout⟩

end Recorded

namespace Stock

/-- What is there of a kind, from the reply to the call that lists it. -/
def ofReply (kind : DefinedKind) (managed : Bool) : Except HostError (List String) → Stock
  | .ok names =>
      if managed then .known names
      else .leftAlone (names.map fun name => { kind := kind.resource, name, outcome := .skippedUnmanaged })
  | .error e => if managed then .unknown e.message else .leftAlone []

theorem attests_take (kind : DefinedKind) (managed : Bool) :
    (take kind managed).Attests fun xs s =>
      ∃ reply, xs = [⟨.call (.list kind), reply⟩] ∧ s = ofReply kind managed reply := by
  unfold take
  refine Attests.bind (Attests.query (P := fun xs r => xs = [⟨.call (.list kind), r⟩]) fun _ => rfl) ?_
  rintro _ reply rfl
  cases managed <;> cases reply <;> exact Attests.pure ⟨_, rfl, rfl⟩

variable {d : Desired} {dry : Bool} {k : DefinedKind} {reply : Except HostError (List String)}

/-- What is stale of a kind is not declared, and what is listed of a managed kind is declared or stale. -/
theorem stale_ofReply (managed : Bool) (declared : List String) :
    (∀ name ∈ (ofReply k managed reply).stale declared, name ∉ declared) ∧
      (managed = true → ∀ names, reply = .ok names → ∀ name ∈ names,
        name ∈ declared ∨ name ∈ (ofReply k managed reply).stale declared) := by
  cases managed with
  | false => cases reply <;> exact ⟨by simp [ofReply, stale], fun h => absurd h (by simp)⟩
  | true =>
    cases reply with
    | error e => exact ⟨by simp [ofReply, stale], fun _ names h => absurd h (by simp)⟩
    | ok names =>
      refine ⟨fun name hname => (mem_stale_iff.1 hname).2, ?_⟩
      rintro - _ h name hname
      obtain rfl := Except.ok.inj h
      by_cases hdeclared : name ∈ declared
      · exact .inl hdeclared
      · exact .inr (mem_stale_iff.2 ⟨hname, hdeclared⟩)

/-- **The tasks for the declared resources of a kind report**, and so does the call that lists the kind. -/
theorem reports_tasks {α : Type} {declared : List α} {name : α → String} {lost : α → List Result}
    {task : α → Bool → Talk Recorded} {more : α → List (ResourceKind × String)}
    (hnames : d.names k = declared.map name)
    (htask : ∀ a ∈ declared, ∀ b, (task a b).Attests (d.Reports dry))
    (hcovers : ∀ a ∈ declared, ∀ b,
      (task a b).Confined (fun _ => True) (Recorded.Covers ((k.resource, name a) :: more a)))
    (hlost : ∀ a ∈ declared, (∀ y ∈ lost a, y.outcome = .failed) ∧ Recorded.Covers (more a) (.ok (lost a))) :
    (gather ((ofReply k (d.manages k) reply).tasks k declared name lost task)).Attests fun xs r =>
      d.Reports dry (⟨.call (.list k), reply⟩ :: xs) r ∧
        r.Mentions (declared.flatMap fun a => (k.resource, name a) :: more a) := by
  -- what is listed without failure is no problem
  have hlisted : ∀ {names : List String} {rs : List Result}, reply = .ok names →
      (∀ y ∈ rs, y.outcome ≠ .cancelled) → d.Reports dry [⟨.call (.list k), reply⟩] (.ok rs) := by
    rintro names rs rfl hrs
    refine .ok ⟨fun x hx => ?_, fun y hy hcancelled => absurd hcancelled (hrs y hy)⟩
    obtain rfl := List.mem_singleton.1 hx
    exact .of_not_isProblem fun reason => Exchange.not_isProblem_ok (by simp)
  have hstruck : ∀ {e : HostError} {rs : List Result}, reply = .error e → (∀ y ∈ rs, y.outcome ≠ .cancelled) →
      (∀ name ∈ d.names k, ∃ y ∈ rs, y.key = (k.resource, name) ∧ y.FailsFor e.message) →
      d.Reports dry [⟨.call (.list k), reply⟩] (.ok rs) := by
    rintro e rs rfl hrs hfail
    refine .ok ⟨fun x hx => ?_, fun y hy hcancelled => absurd hcancelled (hrs y hy)⟩
    obtain rfl := List.mem_singleton.1 hx
    refine ⟨fun c hc hlist => absurd (Query.call.inj hc).symm (hlist k), fun l e' he => .inl ?_⟩
    cases he
    exact hfail
  have halone : ∀ rs, d.Reports dry [⟨.call (.list k), reply⟩] (.ok rs) →
      Recorded.Mentions (declared.flatMap fun a => (k.resource, name a) :: more a) (.ok rs) →
      (gather [pure (.ok rs)]).Attests fun xs r => d.Reports dry (⟨.call (.list k), reply⟩ :: xs) r ∧
        r.Mentions (declared.flatMap fun a => (k.resource, name a) :: more a) := by
    intro rs hreports hmentions
    have hnil : rs ++ [] = rs := List.append_nil rs
    exact Attests.pure (a := Except.ok (rs ++ [])) (by rw [hnil]; exact ⟨hreports, hmentions⟩)
  cases hmanaged : d.manages k with
  | false =>
    -- nothing is declared of a kind that is not managed
    have hnone : declared = [] := by
      refine List.eq_nil_iff_forall_not_mem.2 fun a ha => ?_
      have hname : name a ∈ d.names k := hnames ▸ List.mem_map_of_mem ha
      exact absurd (Desired.manages_of_mem hname) (by simp [hmanaged])
    have hempty : ∀ rs, Recorded.Mentions (declared.flatMap fun a => (k.resource, name a) :: more a) (.ok rs) := by
      intro rs _ _ key hkey
      rw [hnone] at hkey
      exact absurd hkey (by simp)
    cases hreply : reply with
    | ok names =>
      rw [← hreply]
      have hleft : ofReply k false reply = .leftAlone (names.map fun name =>
          { kind := k.resource, name, outcome := .skippedUnmanaged }) := by rw [hreply]; rfl
      rw [hleft]
      refine halone _ (hlisted hreply fun y hy => ?_) (hempty _)
      obtain ⟨name, -, rfl⟩ := List.mem_map.1 hy
      simp
    | error e =>
      rw [← hreply]
      have hleft : ofReply k false reply = .leftAlone [] := by rw [hreply]; rfl
      rw [hleft]
      refine halone _ (hstruck hreply (by simp) fun name hname => ?_) (hempty _)
      exact absurd (Desired.manages_of_mem hname) (by simp [hmanaged])
  | true =>
    cases hreply : reply with
    | ok names =>
      rw [← hreply]
      have hknown : ofReply k true reply = .known names := by rw [hreply]; rfl
      rw [hknown]
      have hgather : (gather (declared.map fun a => task a (names.contains (name a)))).Attests (d.Reports dry) :=
        Desired.reports_gather (List.forall_mem_map.2 fun a ha => htask a ha _)
      have hkeys := Attests.of_confined (Confined.gather_covers fun a ha => hcovers a ha (names.contains (name a)))
      refine Attests.mono (hgather.and hkeys) fun xs r ⟨hr, _, hcovered⟩ => ⟨?_, hcovered.mentions⟩
      have hfirst : d.Reports dry [⟨.call (.list k), reply⟩] (.ok []) := hlisted hreply (by simp)
      have hall : d.Reports dry (⟨.call (.list k), reply⟩ :: xs) (Recorded.append (.ok []) r) :=
        hfirst.append hr fun x => by simp
      rwa [show Recorded.append (.ok []) r = r by cases r <;> rfl] at hall
    | error e =>
      rw [← hreply]
      have hunknown : ofReply k true reply = .unknown e.message := by rw [hreply]; rfl
      rw [hunknown]
      refine halone _ (hstruck hreply (fun y hy => ?_) fun name' hname' => ?_) ?_
      · rcases List.mem_append.1 hy with hy | hy
        · obtain ⟨a, -, rfl⟩ := List.mem_map.1 hy
          simp [Result.stuck, Result.failure]
        · obtain ⟨a, ha, hy⟩ := List.mem_flatMap.1 hy
          simp [(hlost a ha).1 y hy]
      · rw [hnames] at hname'
        obtain ⟨a, ha, rfl⟩ := List.mem_map.1 hname'
        exact ⟨_, List.mem_append_left _ (List.mem_map_of_mem ha), rfl, rfl, rfl⟩
      · intro rs hrs key hkey
        obtain rfl := Except.ok.inj hrs
        obtain ⟨a, ha, hkey⟩ := List.mem_flatMap.1 hkey
        rcases List.mem_cons.1 hkey with rfl | hkey
        · exact ⟨_, List.mem_append_left _ (List.mem_map_of_mem ha), rfl⟩
        · obtain ⟨y, hy, habout⟩ := (hlost a ha).2.mentions _ rfl key hkey
          exact ⟨y, List.mem_append_right _ (List.mem_flatMap.2 ⟨a, ha, hy⟩), habout⟩

end Stock

/-! ### The phases of a pass -/

namespace Desired

variable {d : Desired} {dry : Bool} {xs ys : List (Exchange Query Query.Reply)} {k : DefinedKind}

/-- What is known of the stale resources of a kind from what was exchanged. -/
structure Finds (d : Desired) (k : DefinedKind) (xs : List (Exchange Query Query.Reply)) (stale : List String) :
    Prop where
  undeclared : ∀ name ∈ stale, name ∉ d.names k
  listed : d.manages k = true → ∃ reply, ⟨.call (.list k), reply⟩ ∈ xs ∧
    ∀ names, reply = .ok names → ∀ name ∈ names, name ∈ d.names k ∨ name ∈ stale

theorem Finds.mono {stale : List String} (h : d.Finds k xs stale) (hsub : ∀ x ∈ xs, x ∈ ys) : d.Finds k ys stale := by
  refine ⟨h.undeclared, fun hmanaged => ?_⟩
  obtain ⟨reply, hmem, hlisted⟩ := h.listed hmanaged
  exact ⟨reply, hsub _ hmem, hlisted⟩

theorem finds_ofReply {reply : Except HostError (List String)} (hmem : ⟨.call (.list k), reply⟩ ∈ xs) :
    d.Finds k xs ((Stock.ofReply k (d.manages k) reply).stale (d.names k)) :=
  ⟨(Stock.stale_ofReply _ _).1, fun hmanaged => ⟨reply, hmem, (Stock.stale_ofReply _ _).2 hmanaged⟩⟩

/-- What the first phase tells: of the declared networks and pools with their volumes. -/
def foundationKeys (d : Desired) : List (ResourceKind × String) :=
  (d.networks.items.flatMap fun n => [(.network, n.name)]) ++
    d.pools.items.flatMap fun p => (.pool, p.name) :: p.volumeKeys p.volumes

theorem reports_networksAndPools (d : Desired) (dry : Bool) :
    (d.networksAndPools dry).Attests fun xs a => d.Reports dry xs a.1 ∧ a.1.Mentions d.foundationKeys ∧
      d.Finds .network xs a.2.1 ∧ d.Finds .pool xs a.2.2 := by
  unfold networksAndPools
  refine Attests.bind (Stock.attests_take .network (d.manages .network)) ?_
  rintro _ networks ⟨reply, rfl, rfl⟩
  refine Attests.bind (Stock.attests_take .pool (d.manages .pool)) ?_
  rintro _ pools ⟨reply', rfl, rfl⟩
  -- what a list call met is told of all the resources of its kind
  have hnetworks : (gather ((Stock.ofReply .network (d.manages .network) reply).tasks .network d.networks.items
      (·.name) (fun _ => []) fun n => n.task dry)).Attests fun xs r =>
        d.Reports dry (⟨.call (.list .network), reply⟩ :: xs) r ∧
          r.Mentions (d.networks.items.flatMap fun n => [(.network, n.name)]) :=
    Stock.reports_tasks rfl (fun n hn b => reports_network hn b)
    (fun n _ b => (n.covers dry b).mono (fun _ _ => trivial) fun _ => id)
    fun _ _ => ⟨by simp, Recorded.covers_ok (.refl _)⟩
  have hpools : (gather ((Stock.ofReply .pool (d.manages .pool) reply').tasks .pool d.pools.items
      (·.name) Pool.volumesLost fun p => p.task dry)).Attests fun xs r =>
        d.Reports dry (⟨.call (.list .pool), reply'⟩ :: xs) r ∧
          r.Mentions (d.pools.items.flatMap fun p => (.pool, p.name) :: p.volumeKeys p.volumes) :=
    Stock.reports_tasks rfl (fun p hp b => reports_pool hp b) (fun p _ b => p.covers dry b)
    fun p _ => ⟨failed_of_mem_volumesFailed, Pool.covers_volumesFailed _ _ _⟩
  rw [gather_append, LawfulMonad.bind_assoc]
  refine Attests.bind hnetworks ?_
  rintro xs r ⟨hr, hkeys⟩
  rw [LawfulMonad.bind_assoc]
  refine Attests.bind hpools ?_
  rintro ys r' ⟨hr', hkeys'⟩
  refine Attests.pure ⟨hr.append hr' fun x => ?_, hkeys.append hkeys', finds_ofReply ?_, finds_ofReply ?_⟩
  · simp only [List.append_nil, List.singleton_append, List.mem_cons, List.mem_append]
    tauto
  · simp
  · simp

theorem reports_domainsInLine (d : Desired) (dry : Bool) (timeout : Binary64) (before : List Result) :
    (d.domainsInLine dry timeout before).Attests fun xs a => d.Reports dry xs a.1 ∧
      a.1.Mentions (d.domains.items.flatMap fun x => [(.domain, x.name)]) ∧ d.Finds .domain xs a.2 := by
  unfold domainsInLine
  refine Attests.bind (Stock.attests_take .domain (d.manages .domain)) ?_
  rintro _ domains ⟨reply, rfl, rfl⟩
  have hdomains : (gather ((Stock.ofReply .domain (d.manages .domain) reply).tasks .domain d.domains.items
      (·.name) (fun _ => []) fun x => x.task dry timeout before)).Attests fun xs r =>
        d.Reports dry (⟨.call (.list .domain), reply⟩ :: xs) r ∧
          r.Mentions (d.domains.items.flatMap fun x => [(.domain, x.name)]) :=
    Stock.reports_tasks rfl
    (fun x hx b => reports_domain hx timeout before b) (fun x _ b => x.covers dry timeout before b)
    fun _ _ => ⟨by simp, Recorded.covers_ok (.refl _)⟩
  refine Attests.bind hdomains ?_
  rintro xs r ⟨hr, hkeys⟩
  refine Attests.pure ⟨?_, hkeys, finds_ofReply (by simp)⟩
  rw [List.append_nil]
  exact hr

/-- Whether results account for what is declared and for what was listed of the managed kinds. -/
structure Answered (d : Desired) (xs : List (Exchange Query Query.Reply)) (rs : List Result) : Prop where
  declared : ∀ k, ∀ name ∈ d.names k, ∃ y ∈ rs, y.key = (k.resource, name)
  volumes : ∀ key ∈ d.volumeKeys, ∃ y ∈ rs, y.key = key
  listed : ∀ k, d.manages k = true → ∃ reply, ⟨.call (.list k), reply⟩ ∈ xs ∧
    ∀ names, reply = .ok names → ∀ name ∈ names, ∃ y ∈ rs, y.key = (k.resource, name)

theorem Answered.of_mem {rs rs' : List Result} (h : d.Answered xs rs) (hmem : ∀ y, y ∈ rs ↔ y ∈ rs') :
    d.Answered xs rs' := by
  have hsame : ∀ key, (∃ y ∈ rs, y.key = key) → ∃ y ∈ rs', y.key = key :=
    fun key ⟨y, hy, habout⟩ => ⟨y, (hmem y).1 hy, habout⟩
  refine ⟨fun k name hname => hsame _ (h.declared k name hname), fun key hkey => hsame key (h.volumes key hkey), ?_⟩
  intro k hmanaged
  obtain ⟨reply, hreply, hlisted⟩ := h.listed k hmanaged
  exact ⟨reply, hreply, fun names hnames name hname => hsame _ (hlisted names hnames name hname)⟩

/-- What the four parts of a pass mention accounts for everything. -/
theorem answered_of_mentions {networks pools domains : List String} {first second third last : List Result}
    (hfirst : Recorded.Mentions d.foundationKeys (.ok first))
    (hsecond : Recorded.Mentions (d.domains.items.flatMap fun x => [(.domain, x.name)]) (.ok second))
    (hthird : Recorded.Mentions (domains.flatMap fun name => [(.domain, name)]) (.ok third))
    (hlast : Recorded.Mentions ((networks.map (DefinedKind.network, ·) ++
      pools.map (DefinedKind.pool, ·)).map fun s => (s.1.resource, s.2)) (.ok last))
    (hnetworks : d.Finds .network xs networks) (hpools : d.Finds .pool xs pools)
    (hdomains : d.Finds .domain xs domains) : d.Answered xs (first ++ second ++ third ++ last) := by
  have hall := ((hfirst.append hsecond).append hthird).append hlast _ rfl
  simp only [List.mem_append] at hall
  have hdeclared : ∀ k, ∀ name ∈ d.names k,
      ∃ y ∈ first ++ second ++ third ++ last, y.key = (DefinedKind.resource k, name) := by
    intro k name hname
    simp only [List.mem_append]
    refine hall _ (.inl (.inl ?_))
    cases k with
    | network =>
      obtain ⟨n, hn, rfl⟩ := List.mem_map.1 hname
      exact .inl (List.mem_append_left _ (List.mem_flatMap.2 ⟨n, hn, List.mem_cons_self⟩))
    | pool =>
      obtain ⟨p, hp, rfl⟩ := List.mem_map.1 hname
      exact .inl (List.mem_append_right _ (List.mem_flatMap.2 ⟨p, hp, List.mem_cons_self⟩))
    | domain =>
      obtain ⟨x, hx, rfl⟩ := List.mem_map.1 hname
      exact .inr (List.mem_flatMap.2 ⟨x, hx, List.mem_cons_self⟩)
  -- what is listed is declared, or it is stale and one of the last parts tells of it
  have hlisted : ∀ {k : DefinedKind} {stale : List String}, d.Finds k xs stale →
      (∀ name ∈ stale, ∃ y ∈ first ++ second ++ third ++ last, y.key = (k.resource, name)) → d.manages k = true →
      ∃ reply, ⟨.call (.list k), reply⟩ ∈ xs ∧ ∀ names, reply = .ok names →
        ∀ name ∈ names, ∃ y ∈ first ++ second ++ third ++ last, y.key = (k.resource, name) := by
    intro k stale hlists hstale hmanaged
    obtain ⟨reply, hmem, hnames⟩ := hlists.listed hmanaged
    refine ⟨reply, hmem, fun names hreply name hname => ?_⟩
    exact (hnames names hreply name hname).elim (hdeclared k name) (hstale name)
  refine ⟨hdeclared, fun key hkey => ?_, fun k hmanaged => ?_⟩
  · obtain ⟨p, hp, hkey⟩ := List.mem_flatMap.1 hkey
    simp only [List.mem_append]
    exact hall key (.inl (.inl (.inl (List.mem_append_right _
      (List.mem_flatMap.2 ⟨p, hp, List.mem_cons_of_mem _ hkey⟩)))))
  · cases k with
    | network =>
      refine hlisted hnetworks (fun name hname => ?_) hmanaged
      simp only [List.mem_append]
      exact hall _ (.inr (List.mem_map.2 ⟨(.network, name), List.mem_append_left _ (List.mem_map_of_mem hname), rfl⟩))
    | pool =>
      refine hlisted hpools (fun name hname => ?_) hmanaged
      simp only [List.mem_append]
      exact hall _ (.inr (List.mem_map.2 ⟨(.pool, name), List.mem_append_right _ (List.mem_map_of_mem hname), rfl⟩))
    | domain =>
      refine hlisted hdomains (fun name hname => ?_) hmanaged
      simp only [List.mem_append]
      exact hall _ (.inl (.inr (List.mem_flatMap.2 ⟨name, hname, List.mem_cons_self⟩)))

/-- **The phases of a pass report**, and if there are results they account for everything. -/
theorem reports_phases (d : Desired) (dry : Bool) (timeout : Binary64) :
    (d.phases dry timeout).Attests fun xs r => d.Reports dry xs r ∧ ∀ rs, r = .ok rs → d.Answered xs rs := by
  have hstop : ∀ {xs ys : List (Exchange Query Query.Reply)} {why : Unwritable}, d.Reports dry ys (.error why) →
      (∀ x ∈ ys, x ∈ xs) → d.Reports dry xs (.error why) ∧
        ∀ rs, (Except.error why : Recorded) = .ok rs → d.Answered xs rs := fun h hsub =>
    ⟨h.error hsub, fun _ hrs => absurd hrs (by simp)⟩
  -- phase by phase; what was met before is still reported when results are added behind it
  unfold phases
  refine Attests.bind (d.reports_networksAndPools dry) ?_
  rintro xs ⟨first, networks, pools⟩ ⟨hfirst, hkeys, hnetworks, hpools⟩
  cases first with
  | error why => exact Attests.pure (hstop hfirst (by simp))
  | ok first =>
    refine Attests.bind (d.reports_domainsInLine dry timeout first) ?_
    rintro ys ⟨second, domains⟩ ⟨hsecond, hkeys', hdomains⟩
    cases second with
    | error why => exact Attests.pure (hstop hsecond (by simp +contextual))
    | ok second =>
      have hremovals : (gather (domains.map (Domain.removal dry))).Attests (d.Reports dry) := reports_gather
        (List.forall_mem_map.2 fun name hname => reports_removal (hdomains.undeclared name hname))
      have hcovers : (gather (domains.map (Domain.removal dry))).Confined (fun _ => True)
          (Recorded.Covers (domains.flatMap fun name => [(.domain, name)])) :=
        Confined.gather_covers fun name _ =>
          (Domain.frank_remove dry name).covers_recorded.mono (fun _ _ => trivial) fun _ => id
      refine Attests.bind (hremovals.and (Attests.of_confined hcovers)) ?_
      rintro zs third ⟨hthird, -, hcovered⟩
      cases third with
      | error why => exact Attests.pure (hstop hthird (by simp +contextual))
      | ok third =>
        -- what is removed last was found in the lists of the first phase and is not declared
        have hstale : ∀ s ∈ networks.map (DefinedKind.network, ·) ++ pools.map (DefinedKind.pool, ·),
            s.2 ∉ d.names s.1 := by
          intro s hs
          rcases List.mem_append.1 hs with hs | hs
          · obtain ⟨name, hname, rfl⟩ := List.mem_map.1 hs
            exact hnetworks.undeclared name hname
          · obtain ⟨name, hname, rfl⟩ := List.mem_map.1 hs
            exact hpools.undeclared name hname
        refine Attests.bind ((reports_rest hstale (first ++ second ++ third)).and
          (Attests.of_confined (Removal.covers_run dry (first ++ second ++ third) _))) ?_
        rintro us last ⟨hlast, -, hcovered'⟩
        refine Attests.pure ⟨?_, fun rs hrs => ?_⟩
        · refine ((hfirst.append hsecond fun x => List.mem_append).append hthird
            fun x => List.mem_append).append hlast fun x => ?_
          simp only [List.append_nil, List.mem_append, or_assoc]
        · cases last with
          | error why => exact absurd hrs (by simp [Except.map])
          | ok last =>
            obtain rfl := Except.ok.inj hrs
            exact answered_of_mentions (hkeys) (hkeys') hcovered.mentions hcovered'.mentions
              (hnetworks.mono (by simp +contextual)) (hpools.mono (by simp +contextual))
              (hdomains.mono (by simp +contextual))

end Desired

/-! ### Reports -/

namespace Settings

variable {σ : Type}

end Settings

/-- A host on which no pool can be started. -/
def Memory.withoutStart : Memory := { disruptions := [{ word := "start_pool", error := .operation }] }

/-- A network whose name has a control character. -/
def Network.odd : Network :=
  { name := "a\x01", identifier := some ⟨1⟩, forward := .nat, bridge := "virbr56"
    gateway := .ofQuads 192 168 56 1, netmask := Network.defaultNetmask, dhcp := none, active := true
    autostart := true }

/-- A desired state with a network whose name has a control character, and a pool with a volume. -/
def Desired.withControlCharacter : Desired :=
  { networks := .managed [.odd], pools := .managed [.images], domains := .managed [] }

theorem Desired.validates_withControlCharacter : Desired.withControlCharacter.Validates := by
  refine ⟨?_, by decide +kernel⟩
  simp [withControlCharacter, Pool.images, Declared.items, VolumeEntry.agree]

end VirtualTopology
