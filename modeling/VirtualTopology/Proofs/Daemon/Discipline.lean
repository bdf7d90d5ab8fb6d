import Mathlib.Data.List.Induction
import VirtualTopology.Daemon.Memory
import VirtualTopology.Proofs.Daemon.Client

/-!
# The discipline of a connection

However a client opens, closes and calls, and whichever functions of the daemon fail, it keeps to a discipline in each
turn (`Connection.Turn.Disciplined`, `Connection.disciplined_turns`). Functions are applied over a connection that is
held and nothing else: it was opened by the latest turn that opened one, and since then no turn has closed it or found
that the daemon does not answer any more (`Connection.Held`). No connection is opened while one is held, so that two
openings always have a loss between them.

The same notion decides what comes of a call. Without a connection that is held, or when it turns out to be lost, a
call that is permitted fails for want of a connection. Otherwise it fails exactly if one of its functions does, and the
number of the daemon's error decides how (`Connection.failureKind`).
-/

namespace VirtualTopology.Connection

open DaemonExchange DaemonWork

namespace Turn

variable (t : Turn)

/-- Whether a connection is opened in a turn. -/
def Opens : Prop :=
  ∃ readonly uri timeout, (⟨.connect readonly uri timeout, .opened⟩ : DaemonExchange) ∈ t.exchanges

/-- Whether a connection is given up in a turn: it is closed, or the daemon is asked for its version and fails. -/
def Loses : Prop := t.act = .disconnect ∨ ∃ e, (⟨.call .version, .error e⟩ : DaemonExchange) ∈ t.exchanges

/-- The error that leaves the client in a turn, if one does. -/
def error? : Option HostError :=
  match t.outcome with
  | .ok _ => none
  | .error e => some e

end Turn

/-- Whether a connection is held behind some turns: one of them opened it, and those behind that one neither opened
another one nor gave it up. -/
def Held (ts : List Turn) : Prop :=
  ∃ earlier opening later, ts = earlier ++ opening :: later ∧ opening.Opens ∧ ∀ t ∈ later, ¬ t.Opens ∧ ¬ t.Loses

/-- What kind of failure the error of a function makes of a call: the one for what is not there if the number of the
error is the one that the call reserves for that, and otherwise the general one. -/
def failureKind (q : Call) (e : DaemonError) : HostErrorKind :=
  if (missing? q).map (·.1) = some e.code then .notFound else .operation

/-- The discipline of a turn that begins with a connection that is held, or without one. -/
structure Turn.Disciplined (settings : ConnectionSettings) (held : Prop) (t : Turn) : Prop where
  /-- Functions are applied over a connection that is held. -/
  applied : ∀ f r, (⟨.call f, r⟩ : DaemonExchange) ∈ t.exchanges → held
  /-- The functions that carry out a call are not applied over a connection that turned out to be lost. -/
  carried : ∀ q, t.act = .call q → ∀ f r, f ≠ .version → (⟨.call f, r⟩ : DaemonExchange) ∈ t.exchanges → ¬ t.Loses
  /-- A connection is opened by the act for it, and not while one is held. -/
  opened : ∀ readonly uri timeout r, (⟨.connect readonly uri timeout, r⟩ : DaemonExchange) ∈ t.exchanges →
    t.act = .connect ∧ ¬ held
  /-- The opening of a connection fails exactly if none is held afterwards, and it fails for want of one. -/
  connects : t.act = .connect → (t.error? = none ↔ held ∨ t.Opens) ∧ ∀ e, t.error? = some e → e.kind = .connection
  disconnects : t.act = .disconnect → t.error? = none
  /-- A call to which the connection has no right is refused, and the daemon is not asked anything. -/
  refused : ∀ q, t.act = .call q → Refuses settings q →
    t.exchanges = [] ∧ ∃ e, t.error? = some e ∧ e.kind = .permission
  /-- Every other call fails for want of a connection if none is held, or if it turns out to be lost. -/
  lost : ∀ q, t.act = .call q → ¬ Refuses settings q → ¬ held ∨ t.Loses →
    ∃ e, t.error? = some e ∧ e.kind = .connection
  /-- Otherwise it fails exactly if one of its functions does, as the number of the function's error says. -/
  served : ∀ q, t.act = .call q → ¬ Refuses settings q → held → ¬ t.Loses →
    (t.error? = none ↔ ∀ f e, (⟨.call f, .error e⟩ : DaemonExchange) ∉ t.exchanges) ∧
    ∀ f e, (⟨.call f, .error e⟩ : DaemonExchange) ∈ t.exchanges →
      ∃ x, t.error? = some x ∧ x.kind = failureKind q e

variable {c d e : Connection} {t : Turn} {ts : List Turn} {q : Call}

/-! ### Connections that are held -/

theorem held_append_singleton_iff : Held (ts ++ [t]) ↔ t.Opens ∨ Held ts ∧ ¬ t.Opens ∧ ¬ t.Loses := by
  constructor
  · rintro ⟨earlier, opening, later, h, hopens, hlater⟩
    rcases List.eq_nil_or_concat later with rfl | ⟨later, u, rfl⟩
    · obtain ⟨-, hlast⟩ := List.append_inj' h rfl
      obtain rfl := List.singleton_inj.1 hlast
      exact .inl hopens
    · rw [List.concat_eq_append, ← List.cons_append, ← List.append_assoc] at h
      obtain ⟨rfl, hlast⟩ := List.append_inj' h rfl
      obtain rfl := List.singleton_inj.1 hlast
      rw [List.concat_eq_append, List.forall_mem_append] at hlater
      exact .inr ⟨⟨earlier, opening, later, rfl, hopens, hlater.1⟩, hlater.2 _ (by simp)⟩
  · rintro (hopens | ⟨⟨earlier, opening, later, rfl, hopens, hlater⟩, hquiet⟩)
    · exact ⟨ts, t, [], rfl, hopens, by simp⟩
    · refine ⟨earlier, opening, later ++ [t], by simp, hopens, ?_⟩
      exact List.forall_mem_append.2 ⟨hlater, List.forall_mem_singleton.2 hquiet⟩

theorem not_held_nil : ¬ Held [] := by
  rintro ⟨earlier, opening, later, h, -⟩
  exact absurd h (by simp)

/-- A connection that has been opened is held, or another one is, until one is given up. -/
theorem held_of_opens {before later : List Turn} (hopens : t.Opens) (h : ∀ u ∈ later, ¬ u.Loses) :
    Held (before ++ t :: later) := by
  induction later using List.reverseRecOn with
  | nil => exact held_append_singleton_iff.2 (.inl hopens)
  | append_singleton later u ih =>
    rw [List.forall_mem_append] at h
    rw [← List.cons_append, ← List.append_assoc, held_append_singleton_iff]
    by_cases hu : u.Opens
    · exact .inl hu
    · exact .inr ⟨ih h.1, hu, h.2 u (by simp)⟩

/-! ### What a single turn does -/

theorem kind_hostError (q : Call) (x : DaemonError) : (hostError q x).kind = failureKind q x := by
  unfold hostError failureKind
  cases missing? q with
  | none => rfl
  | some m =>
    by_cases hcode : x.code = m.1
    · simp [hcode]
    · have hcode' : m.1 ≠ x.code := fun h => hcode h.symm
      simp [hcode, hcode', hostError.failed]

section

variable {xs : List DaemonExchange} {v : Except DaemonError q.Answer}
  (h : Stops (DaemonCall.CarriesOut q) xs v)

include h

/-- Carrying out a call neither opens a connection nor finds it lost. -/
theorem not_opens_of_stops : ¬ Turn.Opens ⟨.call q, ⟨.call .version, .ok ()⟩ :: xs, v.mapError (hostError q)⟩ := by
  rintro ⟨readonly, uri, timeout, hmem⟩
  rcases List.mem_cons.1 hmem with hmem | hmem
  · cases hmem
  · obtain ⟨f, r, -, hx⟩ := h.exists_of_mem hmem
    cases hx

theorem not_loses_of_stops : ¬ Turn.Loses ⟨.call q, ⟨.call .version, .ok ()⟩ :: xs, v.mapError (hostError q)⟩ := by
  rintro (hact | ⟨e, hmem⟩)
  · cases hact
  · rcases List.mem_cons.1 hmem with hmem | hmem
    · cases hmem
    · obtain ⟨f, r, hcarries, hx⟩ := h.exists_of_mem hmem
      cases hx
      exact hcarries.ne_version rfl

end

/-- **A connection is open behind a turn** exactly if it is opened in the turn, or was open before and is not given
up. -/
theorem Does.isOpen_iff (h : c.Does t d) : d.isOpen = true ↔ t.Opens ∨ c.isOpen = true ∧ ¬ t.Opens ∧ ¬ t.Loses := by
  cases h with
  | serves allowed opened stops => simp [opened, not_opens_of_stops stops, not_loses_of_stops stops]
  | opensNot closed failed message => simp [Turn.Opens, closed, Ne.symm failed]
  | _ => simp_all [Turn.Opens, Turn.Loses]

theorem Follows.isOpen_iff (h : c.Follows ts d) (hc : c.isOpen = false) : d.isOpen = true ↔ Held ts := by
  induction h with
  | nil => simp [hc, not_held_nil]
  | snoc earlier last ih => rw [held_append_singleton_iff, last.isOpen_iff, ih]

/-- A call that is refused. -/
theorem disciplined_refuses {x : HostError} (h : c.refusal? q = some x) {held : Prop} :
    Turn.Disciplined c.settings held ⟨.call q, [], .error x⟩ := by
  have hrefuses : Refuses c.settings q := by
    by_contra hnot
    exact absurd (refusal?_eq_none_iff.2 hnot) (by simp [h])
  refine ⟨by simp, by simp, by simp, nofun, nofun, ?_, ?_, ?_⟩
  · intro q' _ _
    exact ⟨rfl, x, rfl, kind_of_refusal? h⟩
  · intro q' hq hnot
    obtain rfl := Act.call.inj hq
    exact absurd hrefuses hnot
  · intro q' hq hnot
    obtain rfl := Act.call.inj hq
    exact absurd hrefuses hnot

/-- A call that is carried out. -/
theorem disciplined_serves (hallowed : c.refusal? q = none) {xs : List DaemonExchange}
    {v : Except DaemonError q.Answer} (h : Stops (DaemonCall.CarriesOut q) xs v) {held : Prop} (hheld : held) :
    Turn.Disciplined c.settings held ⟨.call q, ⟨.call .version, .ok ()⟩ :: xs, v.mapError (hostError q)⟩ := by
  have hnot := refusal?_eq_none_iff.1 hallowed
  -- a function that fails is one of those that carry the call out
  have hfailed : ∀ f e, (⟨.call f, .error e⟩ : DaemonExchange) ∈ (⟨.call .version, .ok ()⟩ : DaemonExchange) :: xs →
      (⟨.call f, .error e⟩ : DaemonExchange) ∈ xs := by
    intro f e hmem
    rcases List.mem_cons.1 hmem with hmem | hmem
    · cases hmem
    · exact hmem
  refine ⟨fun _ _ _ => hheld, fun _ _ _ _ _ _ => not_loses_of_stops h, ?_, nofun, nofun, ?_, ?_, ?_⟩
  · intro readonly uri timeout r hmem
    rcases List.mem_cons.1 hmem with hmem | hmem
    · cases hmem
    · obtain ⟨f, r, -, hx⟩ := h.exists_of_mem hmem
      cases hx
  · intro q' hq hrefuses
    obtain rfl := Act.call.inj hq
    exact absurd hrefuses hnot
  · rintro q' - - (hlacks | hloses)
    · exact absurd hheld hlacks
    · exact absurd hloses (not_loses_of_stops h)
  · intro q' hq _ _ _
    obtain rfl := Act.call.inj hq
    constructor
    · constructor
      · intro hnone f e hmem
        simp [Turn.error?, h.eq_error (hfailed f e hmem), Except.mapError] at hnone
      · intro hquiet
        cases v with
        | ok a => rfl
        | error e =>
          obtain ⟨f, hmem⟩ := h.exists_of_error
          exact absurd (List.mem_cons_of_mem _ hmem) (hquiet f e)
    · intro f e hmem
      refine ⟨hostError q e, ?_, kind_hostError q e⟩
      rw [h.eq_error (hfailed f e hmem)]
      rfl

/-- **An act is disciplined**, whatever it does. -/
theorem Does.disciplined (h : c.Does t d) : t.Disciplined c.settings (c.isOpen = true) := by
  cases h with
  | refuses refused => exact disciplined_refuses refused
  | serves allowed opened stops => exact disciplined_serves allowed stops opened
  | opensNot closed failed message =>
    constructor <;> simp_all [Turn.Opens, Turn.Loses, Turn.error?, Ne.symm failed, broken]
  | lacks allowed closed =>
    have hnot := refusal?_eq_none_iff.1 allowed
    constructor <;> simp_all [Turn.Opens, Turn.Loses, Turn.error?, broken]
  | loses allowed opened e =>
    have hnot := refusal?_eq_none_iff.1 allowed
    constructor <;> simp_all [Turn.Opens, Turn.Loses, Turn.error?, broken]
  | _ => constructor <;> simp_all [Turn.Opens, Turn.Loses, Turn.error?]

/-! ### Runs -/

/-- **Every client keeps to the discipline**, whoever answers it: in each of its turns, and from one opening of a
connection to the next. -/
theorem disciplined_turns {σ : Type} (answer : σ → (q : DaemonQuery) → q.Reply × σ) (s : σ)
    (settings : ConnectionSettings) (keepsChips : Bool) (acts : List Act) :
    (∀ before t after, turns answer { settings, keepsChips } s acts = before ++ t :: after →
      t.Disciplined settings (Held before)) ∧
    ∀ before u between v after, turns answer { settings, keepsChips } s acts = before ++ u :: between ++ v :: after →
      u.Opens → v.Opens → ∃ t ∈ between, t.Loses := by
  have hturn : ∀ before t after, turns answer { settings, keepsChips } s acts = before ++ t :: after →
      t.Disciplined settings (Held before) := by
    intro before t after hsplit
    obtain ⟨d, e, hbefore, ht⟩ := exists_follows answer _ s acts hsplit
    have hdisciplined := ht.disciplined
    rwa [hbefore.settings_eq, propext (hbefore.isOpen_iff rfl)] at hdisciplined
  refine ⟨hturn, ?_⟩
  intro before u between v after hsplit hu hv
  by_contra hnone
  have hheld : Held (before ++ u :: between) :=
    held_of_opens hu fun t ht hloses => hnone ⟨t, ht, hloses⟩
  obtain ⟨readonly, uri, timeout, hopened⟩ := hv
  exact ((hturn _ v after hsplit).opened _ _ _ _ hopened).2 hheld

/-- A daemon with a network, which does not answer the second time it is asked for its version. -/
def fallingSilent : DaemonMemory where
  tables := { networks := [("lab", { document := "<network/>", active := true })] }
  disruptions := [{ word := "getVersion", error := 38, skip := 1 }]

/-- The turns of a client that connects, asks for a network that is not there, and asks for all of them when the daemon
has fallen silent. -/
def turnsFallingSilent : List Turn :=
  [⟨.connect, [⟨.connect false "qemu:///system" 30, .opened⟩], .ok ()⟩,
    ⟨.call (.read .network "ghost"),
      [⟨.call .version, .ok ()⟩,
        ⟨.call (.lookup .network "ghost"), .error (DaemonMemory.missing .network "ghost")⟩],
      .error (hostError (.read .network "ghost") (DaemonMemory.missing .network "ghost"))⟩]

theorem disciplined_turns_fallingSilent :
    ∃ lost : Turn,
      turns DaemonMemory.answer { keepsChips := true } fallingSilent
        [.connect, .call (.read .network "ghost"), .call (.list .network)] = turnsFallingSilent ++ lost :: [] ∧
      lost.Loses ∧ (∃ e, lost.error? = some e ∧ e.kind = .connection) ∧
      lost.Disciplined {} (Held turnsFallingSilent) := by
  let silent : DaemonError := { code := 38, message := "getVersion failed" }
  have hsplit : turns DaemonMemory.answer { keepsChips := true } fallingSilent
      [.connect, .call (.read .network "ghost"), .call (.list .network)] =
      turnsFallingSilent ++
        ⟨.call (.list .network), [⟨.call .version, .error silent⟩], .error (broken "Libvirt connection lost")⟩ :: [] :=
    rfl
  have hdisciplined := (disciplined_turns DaemonMemory.answer fallingSilent {} true _).1 _ _ _ hsplit
  have hloses : Turn.Loses
      ⟨.call (.list .network), [⟨.call .version, .error silent⟩], .error (broken "Libvirt connection lost")⟩ :=
    .inr ⟨silent, by simp⟩
  have hallowed : ¬ Refuses ({} : ConnectionSettings) (.list .network) := by
    rintro ⟨hreadonly, -⟩
    cases hreadonly
  exact ⟨_, hsplit, hloses, hdisciplined.lost (.list .network) rfl hallowed (.inr hloses), hdisciplined⟩

end VirtualTopology.Connection
