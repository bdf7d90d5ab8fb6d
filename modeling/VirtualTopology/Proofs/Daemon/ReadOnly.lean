import VirtualTopology.Daemon.Memory
import VirtualTopology.Proofs.Daemon.Client
import VirtualTopology.Proofs.Preview

/-!
# Connections for reading only

A client whose connection is for reading only does not write, whatever it is told to do (`Connection.looksOnly_turns`).
It refuses each call that would change the host before it says anything to the daemon, whether the connection is open
or not; it opens its connection for reading only; and of the functions of the daemon it applies none that writes
(`Connection.Turn.LooksOnly`).

Nothing of this depends on who answers. If it is a daemon that answers from tables (`AnswersFrom`), the tables end as
they began, up to the looks at guests that somebody else has asked to shut down (`Tables.LookedAt`). What fails, how
long an opening takes and how guests shut down may change from one query to the next.
-/

namespace VirtualTopology

open Dialogue

/-! ### Daemons with tables -/

/-- Whether a daemon answers each query as a daemon in memory with the same tables does, whatever holds of it besides
at that moment. -/
def AnswersFrom {σ : Type} (answer : σ → (q : DaemonQuery) → q.Reply × σ) (tables : σ → Tables) : Prop :=
  ∀ s q, ∃ d : DaemonMemory, d.tables = tables s ∧ (answer s q).1 = (d.answer q).1 ∧
    tables (answer s q).2 = (d.answer q).2.tables

/-- Whether a query looks at a daemon and does not write. -/
def DaemonQuery.Looks : DaemonQuery → Prop
  | connect readonly _ _ => readonly = true
  | call f => f.isWriting = false

namespace DaemonMemory

theorem answersFrom : AnswersFrom DaemonMemory.answer (·.tables) := fun d _ => ⟨d, rfl, rfl, rfl⟩

variable {t u : Tables} {d : DaemonMemory}

theorem get?_of_find {k : DefinedKind} {name : String} {r : StoredResource} (h : find t k name = .ok r) :
    t.get? k name = some r := by
  unfold find at h
  split at h
  · next s hs => rw [hs, Except.ok.inj h]
  · exact absurd h (by simp)

/-- A function that does not write leaves the tables as they are, or looks at one entry. -/
theorem serve_reading {polls : Table Int} {f : DaemonCall} {a : f.Answer} (h : serve polls t f = .ok (a, u))
    (hreads : f.isWriting = false) : u = t ∨ ∃ k name r, t.get? k name = some r ∧ u = t.put k name r.seen := by
  cases f with
  | version | close | listAll _ _ =>
    obtain ⟨-, rfl⟩ := Prod.mk.inj (Except.ok.inj h)
    exact .inl rfl
  | isActive k name =>
    obtain ⟨r, hfind, h⟩ := Tables.exists_of_bind_eq_ok h
    obtain ⟨-, rfl⟩ := Prod.mk.inj (Except.ok.inj h)
    exact .inr ⟨k, name, r, get?_of_find hfind, rfl⟩
  | lookup _ _ | readDocument _ _ _ | autostart _ _ | refresh _ | listVolumes _ | lookupVolume _ _
  | volumeDocument _ _ =>
    obtain ⟨r, -, h⟩ := Tables.exists_of_bind_eq_ok h
    obtain ⟨-, rfl⟩ := Prod.mk.inj (Except.ok.inj h)
    exact .inl rfl
  | _ => exact absurd hreads (by simp [DaemonCall.isWriting])

@[simp] theorem tables_receive (d : DaemonMemory) (e : DaemonEvent) : (d.receive e).2.tables = d.tables := rfl

theorem tables_connect (d : DaemonMemory) (readonly : Bool) (uri : String) (timeout : Int) :
    (d.connect readonly uri timeout).2.tables = d.tables := by
  unfold connect
  dsimp only
  split
  · rfl
  · split
    · next hreceive => exact congrArg (fun x => x.2.tables) hreceive.symm
    · next hreceive => exact congrArg (fun x => x.2.tables) hreceive.symm

/-- A function leaves the tables as they are, or it is served. -/
theorem tables_call (d : DaemonMemory) (f : DaemonCall) :
    (d.call f).2.tables = d.tables ∨ ∃ polls a, serve polls d.tables f = .ok (a, (d.call f).2.tables) := by
  unfold call
  split
  · next hreceive => exact .inl (congrArg (fun x => x.2.tables) hreceive.symm)
  · next e hreceive =>
    have htables : e.tables = d.tables := congrArg (fun x => x.2.tables) hreceive.symm
    split
    · next a tables hserve => exact .inr ⟨e.polls, a, htables ▸ hserve⟩
    · exact .inl htables

/-- **Looking at a daemon only looks at its tables.** -/
theorem lookedAt_answer (h : t.LookedAt d.tables) {q : DaemonQuery} (hlooks : q.Looks) :
    t.LookedAt (d.answer q).2.tables := by
  cases q with
  | connect readonly uri timeout =>
    show t.LookedAt (d.connect readonly uri timeout).2.tables
    rw [tables_connect]
    exact h
  | call f =>
    show t.LookedAt (d.call f).2.tables
    rcases d.tables_call f with heq | ⟨polls, a, hserve⟩
    · rw [heq]
      exact h
    · rcases serve_reading hserve hlooks with heq | ⟨k, name, r, hr, heq⟩
      · rw [heq]
        exact h
      · rw [heq]
        exact h.look hr

end DaemonMemory

/-- **Looking at a daemon with tables only looks at them.** -/
theorem AnswersFrom.lookedAt {σ : Type} {answer : σ → (q : DaemonQuery) → q.Reply × σ} {tables : σ → Tables}
    (h : AnswersFrom answer tables) {t : Tables} {s : σ} (hs : t.LookedAt (tables s)) {q : DaemonQuery}
    (hlooks : q.Looks) : t.LookedAt (tables (answer s q).2) := by
  obtain ⟨d, hd, -, hanswer⟩ := h s q
  rw [hanswer]
  exact DaemonMemory.lookedAt_answer (hd ▸ hs) hlooks

namespace Connection

/-! ### Turns -/

/-- Whether a turn only looks at the daemon. -/
structure Turn.LooksOnly (t : Turn) : Prop where
  /-- A call that would change the host is refused, and nothing is exchanged with the daemon. -/
  refuses : ∀ q, t.act = .call q → q.isReading = false →
    t.exchanges = [] ∧ ∃ e, t.outcome = .error e ∧ e.kind = .permission
  opens : ∀ readonly uri timeout r, (⟨.connect readonly uri timeout, r⟩ : DaemonExchange) ∈ t.exchanges →
    readonly = true
  applies : ∀ f r, (⟨.call f, r⟩ : DaemonExchange) ∈ t.exchanges → f.isWriting = false

variable {c d : Connection} {t : Turn}

/-- **An act over a connection for reading only looks**, whatever it does. -/
theorem Does.looksOnly (h : c.Does t d) (hreadonly : c.settings.readonly = true) : t.LooksOnly := by
  cases h with
  | held _ | closesNothing _ => exact ⟨nofun, by simp, by simp⟩
  | opens _ | opensNot _ _ _ => exact ⟨nofun, by simp [hreadonly], by simp⟩
  | closes _ r =>
    refine ⟨nofun, by simp, fun f r hmem => ?_⟩
    cases List.mem_singleton.1 hmem
    rfl
  | @refuses q x refused =>
    refine ⟨fun _ _ _ => ⟨rfl, x, rfl, kind_of_refusal? refused⟩, by simp, by simp⟩
  | @lacks q allowed _ =>
    refine ⟨fun q' hq hwrites => ?_, by simp, by simp⟩
    obtain rfl := Act.call.inj hq
    exact absurd ⟨hreadonly, hwrites⟩ (refusal?_eq_none_iff.1 allowed)
  | @loses q allowed _ e =>
    refine ⟨fun q' hq hwrites => ?_, by simp, fun f r hmem => ?_⟩
    · obtain rfl := Act.call.inj hq
      exact absurd ⟨hreadonly, hwrites⟩ (refusal?_eq_none_iff.1 allowed)
    · cases List.mem_singleton.1 hmem
      rfl
  | @serves q allowed _ xs v stops =>
    -- what is carried out is a reading call
    have hreading : q.isReading = true := by
      by_contra hnot
      exact refusal?_eq_none_iff.1 allowed ⟨hreadonly, by simpa using hnot⟩
    refine ⟨fun q' hq hwrites => ?_, fun readonly uri timeout r hmem => ?_, fun f r hmem => ?_⟩
    · obtain rfl := Act.call.inj hq
      exact absurd hwrites (by simp [hreading])
    · rcases List.mem_cons.1 hmem with hmem | hmem
      · cases hmem
      · obtain ⟨f, a, -, hx⟩ := stops.exists_of_mem hmem
        cases hx
    · rcases List.mem_cons.1 hmem with hmem | hmem
      · cases hmem
        rfl
      · obtain ⟨g, a, hcarries, hx⟩ := stops.exists_of_mem hmem
        cases hx
        exact hcarries.reads hreading

/-- What is exchanged in a turn that only looks are looks. -/
theorem Turn.LooksOnly.looks (h : t.LooksOnly) : ∀ x ∈ t.exchanges, x.query.Looks := by
  rintro ⟨_ | _, r⟩ hx
  · exact h.opens _ _ _ _ hx
  · exact h.applies _ _ hx

/-! ### Runs -/

section

variable {σ : Type} {answer : σ → (q : DaemonQuery) → q.Reply × σ}

/-- Each turn over a connection for reading only looks, whoever answers. -/
theorem looksOnly_of_mem (hreadonly : c.settings.readonly = true) {s : σ} {acts : List Act}
    (ht : t ∈ c.turns answer s acts) : t.LooksOnly := by
  obtain ⟨before, after, hsplit⟩ := List.append_of_mem ht
  obtain ⟨d, e, hbefore, hdoes⟩ := exists_follows answer c s acts hsplit
  exact hdoes.looksOnly (hbefore.settings_eq ▸ hreadonly)

/-- The tables behind an act over a connection for reading only are those before it, after looks. -/
theorem lookedAt_perform {tables : σ → Tables} (hanswer : AnswersFrom answer tables)
    (hreadonly : c.settings.readonly = true) {u : Tables} {s : σ} (hs : u.LookedAt (tables s)) (a : Act) :
    u.LookedAt (tables ((c.perform a).run answer s).2) := by
  have hlooks := ((c.attests_perform a).run answer s).looksOnly hreadonly
  refine run_invariant_of_exchanges (I := fun s => u.LookedAt (tables s)) hlooks.looks ?_ hs
  intro s q hq hu
  exact hanswer.lookedAt hu hq

end

/-- A daemon with a network and a guest, both running, which fails once when it is asked for its networks. -/
def withNetworkAndGuest : DaemonMemory where
  tables :=
    { networks := [("lab", { document := "<network/>", active := true })]
      domains := [("vm", { document := "<domain/>", active := true })] }
  disruptions := [{ word := "listAllNetworks", error := 38, times := some 1 }]

end Connection

end VirtualTopology
