import VirtualTopology.Proofs.Host.Rest
import VirtualTopology.Proofs.Pass.Course

/-!
# What a pass can call

What a pass calls depends on what it finds, but not everything can be called (`Desired.Makes`): no declared
domain is undefined, and none is turned off unless it is declared off or restarted. This holds of every pass
over every host (`Desired.confined_makes`), whether what is written can be read back or not.

The lemmas before it take the allowed calls as a parameter and follow the program, so that other limits can be
put on a pass in the same way (`Desired.confined_phases`).
-/

namespace VirtualTopology

open Dialogue

/-! ### Tasks -/

section

variable {p : Call → Prop}

/-- Work that is recorded calls what the work calls. -/
theorem Frank.confined_calls {kind : ResourceKind} {name : String} {w : Work Result} {e : Result → Prop}
    (h : Frank p e w.run) :
    (do let ending ← supervise kind name w; return ending.recorded : Talk Recorded).Confined
      (Query.CallsOnly p) fun _ => True :=
  h.confined_supervise.bind fun _ _ => Confined.pure trivial

/-- The task for a network or a pool goes to the kind of its resource. -/
theorem Started.Makes.kind {s : Started} {dry : Bool} {c : Call} (h : s.Makes dry c) :
    c.target.1 = s.kind := by
  cases h with
  | look about _ => rw [about]
  | define _ _ => rfl
  | stop _ => rfl
  | start _ => rfl
  | autostart _ => rfl

theorem Pool.Makes.kind {q : Pool} {dry : Bool} {c : Call} (h : q.Makes dry c) : c.target.1 = .pool := by
  cases h with
  | started makes => exact makes.kind
  | volumes => rfl
  | volume _ makes => rw [makes.about]

theorem Domain.confined_calls {x : Domain} {dry : Bool}
    (hlook : ∀ {c : Call}, c.IsAbout .domain x.name → c.isReading = true → p c)
    (hdefine : dry = false → ∀ text, x.written = .ok text → p (.define .domain text))
    (hstart : dry = false → p (.start .domain x.name))
    (hstop : dry = false → x.MayStop → ∀ force, p (.stop .domain x.name force)) (timeout : Binary64)
    (before : List Result) (exists_ : Bool) :
    (x.task dry timeout before exists_).Confined (Query.CallsOnly p)
      (Recorded.All fun y => y.kind = .domain ∧ y.name = x.name) := by
  unfold task
  dsimp only
  split
  · exact (Domain.frank_sync_of hlook hdefine hstart hstop timeout exists_).confined_recorded
  · exact Confined.pure ((Recorded.all_ok_iff _).2 (by simp [Result.stuck, Result.failure]))

/-! ### Phases -/

theorem Stock.confined_list (hlist : ∀ k, p (.list k)) (kind : DefinedKind) (managed : Bool) :
    (Stock.take kind managed).Confined (Query.CallsOnly p) fun _ => True :=
  (Stock.confined_take kind managed).mono (fun _ hq => hq.mono fun c hc => by rw [hc]; exact hlist kind)
    fun _ _ => trivial

theorem Stock.confined_of_mem_tasks {α : Type} {kind : DefinedKind} {declared : List α} {name : α → String}
    {lost : α → List Result} {task : α → Bool → Talk Recorded} {s : Stock}
    (htask : ∀ a ∈ declared, ∀ b, (task a b).Confined (Query.CallsOnly p) fun _ => True) :
    ∀ t ∈ s.tasks kind declared name lost task, t.Confined (Query.CallsOnly p) fun _ => True := by
  intro t ht
  cases s with
  | leftAlone results =>
    obtain rfl := List.mem_singleton.1 ht
    exact Confined.pure trivial
  | unknown reason =>
    obtain rfl := List.mem_singleton.1 ht
    exact Confined.pure trivial
  | known names =>
    obtain ⟨a, ha, rfl⟩ := List.mem_map.1 ht
    exact htask a ha _

theorem confined_gather {ts : List (Talk Recorded)}
    (h : ∀ t ∈ ts, t.Confined (Query.CallsOnly p) fun _ => True) :
    (gather ts).Confined (Query.CallsOnly p) fun _ => True := by
  induction ts with
  | nil => exact Confined.pure trivial
  | cons t ts ih =>
    exact (h t (by simp)).bind fun _ _ => (ih fun s hs => h s (by simp [hs])).bind
      fun _ _ => Confined.pure trivial

/-- What is stale is not declared. -/
theorem Stock.not_mem_of_stale {s : Stock} {declared : List String} {name : String}
    (h : name ∈ s.stale declared) : name ∉ declared := by
  cases s with
  | leftAlone results => exact absurd h (by simp [stale])
  | unknown reason => exact absurd h (by simp [stale])
  | known names => exact (mem_stale_iff.1 h).2

namespace Desired

variable {d : Desired} {dry : Bool} {timeout : Binary64}

/-- Bringing networks and pools in line calls what their tasks call. -/
theorem confined_networksAndPools (hlist : ∀ k, p (.list k))
    (hnetworks : ∀ n ∈ d.networks.items, ∀ b, (n.task dry b).Confined (Query.CallsOnly p) fun _ => True)
    (hpools : ∀ q ∈ d.pools.items, ∀ b, (q.task dry b).Confined (Query.CallsOnly p) fun _ => True) :
    (d.networksAndPools dry).Confined (Query.CallsOnly p) fun x =>
      (∀ name ∈ x.2.1, name ∉ d.names .network) ∧ ∀ name ∈ x.2.2, name ∉ d.names .pool := by
  refine (Stock.confined_list hlist .network _).bind fun networks _ => ?_
  refine (Stock.confined_list hlist .pool _).bind fun pools _ => ?_
  refine (confined_gather fun t ht => ?_).bind fun results _ => Confined.pure
    ⟨fun _ => Stock.not_mem_of_stale, fun _ => Stock.not_mem_of_stale⟩
  rcases List.mem_append.1 ht with ht | ht
  · exact Stock.confined_of_mem_tasks hnetworks t ht
  · exact Stock.confined_of_mem_tasks hpools t ht

/-- Bringing domains in line calls what their tasks call. -/
theorem confined_domainsInLine (hlist : ∀ k, p (.list k)) {before : List Result}
    (hdomains : ∀ x ∈ d.domains.items, ∀ b,
      (x.task dry timeout before b).Confined (Query.CallsOnly p) fun _ => True) :
    (d.domainsInLine dry timeout before).Confined (Query.CallsOnly p) fun x =>
      ∀ name ∈ x.2, name ∉ d.names .domain := by
  refine (Stock.confined_list hlist .domain _).bind fun domains _ => ?_
  exact (confined_gather (Stock.confined_of_mem_tasks hdomains)).bind fun results _ =>
    Confined.pure fun _ => Stock.not_mem_of_stale

/-- Removing domains looks at them and, unless the run is dry, undefines them. -/
theorem confined_removeDomains {names : List String}
    (hremoval : ∀ name ∈ names, p (.isActive .domain name) ∧
      (dry = false → p (.undefine .domain name))) :
    (gather (names.map (Domain.removal dry))).Confined (Query.CallsOnly p) fun _ => True := by
  refine confined_gather fun t ht => ?_
  obtain ⟨name, hname, rfl⟩ := List.mem_map.1 ht
  have hremove : Frank p (fun _ => True) (Domain.remove dry name).run :=
    .seq (.attempt (hremoval name hname).1) fun _ =>
      .seq (.change (hremoval name hname).2) fun _ => .pure trivial
  exact hremove.confined_calls

/-- Removing networks and pools looks at domains and, unless the run is dry, undefines what is stale. -/
theorem confined_removeRest {results : List Result} {stale : List (DefinedKind × String)}
    (hlook : ∀ {c : Call}, c.isReading = true → c.isStill = true → p c)
    (hundefine : dry = false → ∀ s ∈ stale, p (.undefine s.1 s.2)) :
    (Removal.run dry results stale).Confined (Query.CallsOnly p) fun _ => True := by
  unfold Removal.run
  split
  · exact Confined.pure trivial
  · refine Confined.bind (Confined.query (q := Query.cancelled) (e := fun _ => True) trivial
      fun _ => trivial) fun cancelled _ => ?_
    split
    · exact Confined.pure trivial
    · refine ((Removal.confined_references results).mono (fun q hq => hq.mono fun c hc =>
        hlook hc.2 hc.1) fun _ => id).bind fun refs _ => ?_
      split
      · exact Confined.pure trivial
      · refine confined_gather fun t ht => ?_
        obtain ⟨s, hs, rfl⟩ := List.mem_map.1 ht
        rw [Removal.task_eq]
        split
        · have hremove : Frank p (fun _ => True) (Removal.remove dry s.1 s.2).run :=
            .seq (.change fun hreal => hundefine hreal s hs) fun _ => .pure trivial
          exact hremove.confined_calls
        · exact Confined.pure trivial

/-- **A pass calls what its tasks call**, reading calls, and, unless it is dry, ones that undefine what is not
declared. -/
theorem confined_phases (hlook : ∀ {c : Call}, c.isReading = true → p c)
    (hnetworks : ∀ n ∈ d.networks.items, ∀ b, (n.task dry b).Confined (Query.CallsOnly p) fun _ => True)
    (hpools : ∀ q ∈ d.pools.items, ∀ b, (q.task dry b).Confined (Query.CallsOnly p) fun _ => True)
    (hdomains : ∀ x ∈ d.domains.items, ∀ before b,
      (x.task dry timeout before b).Confined (Query.CallsOnly p) fun _ => True)
    (hundefine : dry = false → ∀ {k : DefinedKind} {name : String}, name ∉ d.names k →
      p (.undefine k name)) :
    (d.phases dry timeout).Confined (Query.CallsOnly p) fun _ => True := by
  refine (confined_networksAndPools (fun _ => hlook rfl) hnetworks hpools).bind ?_
  rintro ⟨first, networks, pools⟩ ⟨hstaleNetworks, hstalePools⟩
  dsimp only
  split
  · exact Confined.pure trivial
  · next first =>
    refine (confined_domainsInLine (fun _ => hlook rfl) fun x hx b => hdomains x hx first b).bind ?_
    rintro ⟨second, domains⟩ hstaleDomains
    dsimp only
    split
    · exact Confined.pure trivial
    · refine (confined_removeDomains fun name hname => ⟨hlook rfl, fun hreal =>
        hundefine hreal (hstaleDomains name hname)⟩).bind fun third _ => ?_
      split
      · exact Confined.pure trivial
      · refine (confined_removeRest (fun h _ => hlook h) fun hreal s hs => ?_).bind fun _ _ => Confined.pure trivial
        rcases List.mem_append.1 hs with hs | hs
        · obtain ⟨name, hname, rfl⟩ := List.mem_map.1 hs
          exact hundefine hreal (hstaleNetworks name hname)
        · obtain ⟨name, hname, rfl⟩ := List.mem_map.1 hs
          exact hundefine hreal (hstalePools name hname)

end Desired

end

/-! ### What can be done to domains -/

/-- A call that the work on a domain can make. -/
inductive Domain.Makes (x : Domain) : Call → Prop where
  | look {c : Call} (about : c.IsAbout .domain x.name) (reads : c.isReading = true) : Makes x c
  | define (document : String) : Makes x (.define .domain document)
  | start : Makes x (.start .domain x.name)
  | stop (may : x.MayStop) (force : Bool) : Makes x (.stop .domain x.name force)

theorem Domain.confined_makes (x : Domain) (dry : Bool) (timeout : Binary64) (before : List Result)
    (exists_ : Bool) :
    (x.task dry timeout before exists_).Confined (Query.CallsOnly x.Makes)
      (Recorded.All fun y => y.kind = .domain ∧ y.name = x.name) :=
  Domain.confined_calls .look (fun _ text _ => .define text) (fun _ => .start) (fun _ => .stop) timeout
    before exists_

/-- A call that a pass can make. Of those that change domains, these are the ones that the work on declared
domains can make, and ones that undefine what is not declared. -/
inductive Desired.Makes (d : Desired) : Call → Prop where
  | elsewhere {c : Call} (kind : c.target.1 ≠ .domain) : Makes d c
  | look {c : Call} (reads : c.isReading = true) : Makes d c
  | domain {x : Domain} {c : Call} (declared : x ∈ d.domains.items) (makes : x.Makes c) : Makes d c
  | undefine {name : String} (undeclared : name ∉ d.names .domain) : Makes d (.undefine .domain name)

/-- Bringing networks and pools in line changes no domain. -/
theorem Desired.confined_elsewhere (d : Desired) (dry : Bool) :
    (d.networksAndPools dry).Confined
      (Query.CallsOnly fun c => c.isReading = true ∨ c.target.1 ≠ .domain) fun _ => True := by
  refine (confined_networksAndPools (fun _ => .inl rfl) (fun n _ b => ?_) fun q _ b => ?_).mono
    (fun _ => id) fun _ _ => trivial
  · refine (n.confined_makes dry b).mono (fun _ hq => hq.mono fun c hc => .inr ?_) fun _ _ => trivial
    rw [hc.kind]
    simp
  · refine (q.confined_makes dry b).mono (fun _ hq => hq.mono fun c hc => .inr ?_) fun _ _ => trivial
    rw [hc.kind]
    simp

/-- **What a pass can call.** -/
theorem Desired.confined_makes (d : Desired) (dry : Bool) (timeout : Binary64) :
    (d.phases dry timeout).Confined (Query.CallsOnly d.Makes) fun _ => True := by
  refine confined_phases .look (fun n _ b => ?_) (fun q _ b => ?_) (fun x hx before b => ?_) ?_
  · refine (n.confined_makes dry b).mono (fun _ hq => hq.mono fun c hc => .elsewhere ?_) fun _ _ => trivial
    rw [hc.kind]
    simp
  · refine (q.confined_makes dry b).mono (fun _ hq => hq.mono fun c hc => .elsewhere ?_) fun _ _ => trivial
    rw [hc.kind]
    simp
  · exact (x.confined_makes dry timeout before b).mono (fun q hq => hq.mono fun _ => .domain hx)
      fun _ _ => trivial
  · intro _ k name hundeclared
    cases k with
    | network => exact .elsewhere (by simp [Call.target])
    | pool => exact .elsewhere (by simp [Call.target])
    | domain => exact .undefine hundeclared

/-- A pass calls what its phases call, or nothing. -/
theorem Settings.confined_apply {s : Settings} {d : Desired} {dryRun : Option Bool} {p : Query → Prop}
    (h : (d.phases (s.isDry dryRun) s.pass.shutdownTimeout).Confined p fun _ => True) :
    (s.apply d dryRun).Confined p fun _ => True := by
  unfold apply
  dsimp only
  split
  · refine h.bind fun recorded _ => ?_
    split <;> exact Confined.pure trivial
  · exact Confined.pure trivial

end VirtualTopology
