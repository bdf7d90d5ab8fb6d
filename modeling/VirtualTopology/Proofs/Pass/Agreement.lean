import VirtualTopology.Proofs.Host.Twins
import VirtualTopology.Proofs.Pass.Domains
import VirtualTopology.Proofs.Pass.Pools
import VirtualTopology.Proofs.Pass.Stock

/-!
# Work that agrees

The work on a resource comes to the same on hosts that are the same as far as the resource goes: for networks
and pools (`Started.agrees_sync`), for volumes (`VolumeEntry.agrees_sync`), and for domains
(`Domain.agrees_sync`).

A restart is the only work that asks what time it is. The time can differ between two hosts that are the same
otherwise, and so can the number of looks at a guest that is waited for; but a guest that is off at once is
looked at once, and one that does not shut down is found on each time (`Domain.run_awaitOff_of_on`).
-/

namespace VirtualTopology

open Dialogue Talk

variable {waits : String → Prop} {P : Place → Prop}

/-! ### Networks, pools and volumes -/

namespace Started

variable {s : Started} {dry : Bool}

theorem agrees_finish (hcalls : ∀ c, s.Makes dry c → c.Within P) (exists_ changed : Bool) :
    Agrees waits P (s.finish dry exists_ changed).run := by
  have hrest : ∀ running autostart, Agrees waits P (do
      let p := s.plan exists_ changed running autostart
      if p.stop then Work.change dry .stop (.stop s.kind s.name false)
      if p.start then Work.change dry .start (.start s.kind s.name)
      if p.autostart then
        Work.change dry .autostart (.setAutostart s.kind s.name s.autostart)
      let readable := s.active && (running || !dry)
      return (s.result p, readable) : Work _).run := fun running autostart =>
    .seqIf (.change fun hd => hcalls _ (.stop hd)) (.seqIf (.change fun hd => hcalls _ (.start hd))
      (.seqIf (.change fun hd => hcalls _ (.autostart hd)) (.pure _)))
  unfold finish
  cases exists_ with
  | true =>
    exact .seq (.attempt (hcalls _ (.look rfl rfl))) fun running =>
      .seq (.attempt (hcalls _ (.look rfl rfl))) fun autostart => hrest running autostart
  | false =>
    exact .seq (.pure _) fun running => .seq (.pure _) fun autostart => hrest running autostart

/-- **The work on a network or pool agrees** where its calls are settled. -/
theorem agrees_sync (hcalls : ∀ c, s.Makes dry c → c.Within P) (exists_ : Bool) :
    Agrees waits P (s.sync dry exists_).run := by
  rw [sync_eq]
  refine .seqWriting fun text htext => ?_
  have hstore : Agrees waits P (Work.change dry .define (.define s.kind text)).run :=
    .change fun hd => hcalls _ (.define hd htext)
  cases exists_ with
  | true =>
    refine .seq (.attempt (hcalls _ (.look rfl rfl))) fun stored => .seq (.pure _) fun changed => ?_
    exact .seqIf hstore (agrees_finish hcalls true changed)
  | false => exact .seq (.pure _) fun changed => .seqIf hstore (agrees_finish hcalls false changed)

end Started

/-- **The work on a volume agrees** where its calls are settled. -/
theorem VolumeEntry.agrees_sync {e : VolumeEntry} {dry : Bool} {pool : String}
    (hcalls : ∀ c, e.Makes dry pool c → c.Within P) (exists_ : Bool) :
    Agrees waits P (e.sync dry pool exists_).run := by
  cases hp : e.present with
  | false =>
    rw [sync, hp]
    cases exists_ with
    | false => exact .pure _
    | true => exact .seq (.change fun hd => hcalls _ (.delete hd hp)) fun _ => .pure _
  | true =>
    rw [sync, hp]
    cases hv : e.volume with
    | none => exact .pure _
    | some v =>
      cases exists_ with
      | false =>
        exact .seqWriting fun text htext => .seq (.change fun hd => hcalls _ (.create hd hp hv htext)) fun _ => .pure _
      | true =>
        show Agrees _ _ (e.adjust dry pool v).run
        rw [adjust_eq]
        refine .seq (.attempt (hcalls _ .read)) fun document => ?_
        rcases weigh_cases e pool v document with ⟨x, hweigh⟩ |
          ⟨x, -, -, ⟨-, hweigh⟩ | ⟨size, text, -, -, hweigh⟩⟩
        · rw [hweigh]
          exact .pure _
        · rw [hweigh]
          exact .pure _
        · rw [hweigh]
          exact .seq (.change fun hd => hcalls _ (.resize hd hp hv)) fun _ => .seq (.stating _ _) fun _ => .pure _

namespace Pool

variable {p : Pool} {dry : Bool}

theorem agrees_syncVolumes {es : List VolumeEntry} (hcalls : ∀ e ∈ es, ∀ c, e.Makes dry p.name c → c.Within P)
    (there : List String) : Agrees waits P (p.syncVolumes dry there es) := by
  induction es with
  | nil => exact .pure _
  | cons e es ih =>
    refine ((VolumeEntry.agrees_sync (hcalls e (by simp)) _).supervise _ _).bind fun ending => ?_
    split
    · exact .pure _
    · exact (ih fun e' he' => hcalls e' (by simp [he'])).bind fun rs => .pure _

/-- **The task for a pool agrees** where its calls are settled. -/
theorem agrees_task (hcalls : ∀ c, p.Makes dry c → c.Within P) (exists_ : Bool) :
    Agrees waits P (p.task dry exists_) := by
  have hvolumes : ∀ there, Agrees waits P (p.syncVolumes dry there p.volumes) :=
    agrees_syncVolumes fun e he c hc => hcalls c (.volume he hc)
  have hcontents : ∀ readable, Agrees waits P (p.syncContents dry readable) := by
    intro readable
    unfold syncContents
    split
    · exact .pure _
    · split
      · refine (Agrees.call (hcalls _ .volumes)).bind fun reply => ?_
        split
        · exact hvolumes _
        · exact .pure _
      · exact hvolumes _
  refine ((Started.agrees_sync (fun c hc => hcalls c (.started hc)) exists_).supervise _ _).bind fun ending => ?_
  split
  · exact (hcontents _).bind fun rs => .pure _
  · exact .pure _
  · exact .pure _
  · exact .pure _

end Pool

/-- **The task for a network agrees** where its calls are settled. -/
theorem Network.agrees_task {n : Network} {dry : Bool} (hcalls : ∀ c, n.started.Makes dry c → c.Within P)
    (exists_ : Bool) : Agrees waits P (n.task dry exists_) := by
  have hwork : Agrees waits P ((·.1) <$> n.started.sync dry exists_ : Work Result).run := by
    rw [← bind_pure_comp]
    exact (Started.agrees_sync hcalls exists_).seq fun x => .pure _
  exact (hwork.supervise .network n.name).bind fun ending => .pure _

/-! ### Domains -/

namespace Domain

variable {name : String}

/-- A look that fails ends the wait. -/
theorem run_awaitOff_of_error {m n : Memory} {e : HostError}
    (h : m.call (.isActive .domain name) = (.error e, n)) (deadline : Binary64) (looks : Nat) :
    m.run (awaitOff name deadline (looks + 1)).run = (.error (.failed .stop e.message e.failureKind), n) := by
  refine (Memory.run_ask m (.call (.isActive .domain name)) _).trans ?_
  rw [show m.answer (.call (.isActive .domain name)) = _ from h]
  rfl

/-- A guest that is found off has not to be waited for any more. -/
theorem run_awaitOff_of_off {m n : Memory} (h : m.call (.isActive .domain name) = (.ok false, n))
    (deadline : Binary64) (looks : Nat) : m.run (awaitOff name deadline (looks + 1)).run = (.ok true, n) := by
  refine (Memory.run_ask m (.call (.isActive .domain name)) _).trans ?_
  rw [show m.answer (.call (.isActive .domain name)) = _ from h]
  rfl

/-- A guest that is found on is looked at again later, unless the time is over. -/
theorem run_awaitOff_of_on {m n : Memory} (h : m.call (.isActive .domain name) = (.ok true, n))
    (deadline : Binary64) (looks : Nat) :
    m.run (awaitOff name deadline (looks + 1)).run = (.ok false, n) ∨
      ∃ seconds, m.run (awaitOff name deadline (looks + 1)).run
        = (n.answer (.sleep seconds)).2.run (awaitOff name deadline looks).run := by
  have hlook : m.run (awaitOff name deadline (looks + 1)).run = n.run (do
      let left := deadline.sub n.clock
      if left.le .zero then return false
      let _ ← (query (Query.sleep (pause.least left)) : Talk Unit)
      awaitOff name deadline looks : Work Bool).run := by
    refine (Memory.run_ask m (.call (.isActive .domain name)) _).trans ?_
    rw [show m.answer (.call (.isActive .domain name)) = _ from h]
    exact Memory.run_ask n .now _
  rw [hlook]
  dsimp only
  split
  · exact .inl rfl
  · exact .inr ⟨_, rfl⟩

/-- **A guest that does not shut down is found on until the time is over**, and nothing changes meanwhile. -/
theorem run_awaitOff_of_stays {m : Memory} {r : StoredResource} (hr : m.tables.get? .domain name = some r)
    (hactive : r.active = true) (hclosing : r.closing = none)
    (hunstruck : (m.receive (.isActive .domain name)).1 = none)
    (hsteady : ∀ d ∈ m.disruptions, d.concerns (Call.isActive .domain name).word name = true → d.IsSteady)
    (deadline : Binary64) (looks : Nat) :
    (m.run (awaitOff name deadline looks).run).1 = .ok false ∧
      (m.run (awaitOff name deadline looks).run).2.tables = m.tables ∧
      (m.run (awaitOff name deadline looks).run).2.disruptions = m.disruptions := by
  -- by induction on the looks: each one finds the guest as it was and leaves it so
  induction looks generalizing m with
  | zero => exact ⟨rfl, rfl, rfl⟩
  | succ looks ih =>
    have hseen : r.seen = r := StoredResource.seen_eq_self hclosing
    have hserve : m.tables.serve m.polls (.isActive .domain name) = .ok (true, m.tables) := by
      rw [Tables.serve, Tables.find_eq_ok hr]
      show Except.ok (r.seen.active, m.tables.put .domain name r.seen) = _
      rw [hseen, hactive, Tables.put_self hr]
    have hcall : m.call (.isActive .domain name) = (.ok true, (m.receive (.isActive .domain name)).2) := by
      rw [Memory.call_eq, hunstruck, hserve]
      rfl
    have hstore : (m.receive (.isActive .domain name)).2.disruptions = m.disruptions :=
      Disruption.strike?_eq_self hsteady
    rcases run_awaitOff_of_on hcall deadline looks with hend | ⟨seconds, hend⟩
    · rw [hend]
      exact ⟨rfl, rfl, hstore⟩
    · rw [hend]
      have hagain : ((m.receive (.isActive .domain name)).2.receive (.isActive .domain name)).1 = none := by
        show (Call.isActive .domain name).failures (m.receive (.isActive .domain name)).2.disruptions 0 = none
        rw [hstore]
        exact hunstruck
      obtain ⟨hvalue, htables, hdisruptions⟩ :=
        ih (m := ((m.receive (.isActive .domain name)).2.answer (.sleep seconds)).2) hr hagain (hstore ▸ hsteady)
      exact ⟨hvalue, htables, hdisruptions.trans hstore⟩

/-- A guest that is waited for, does not shut down, and is found on, is found on until the time is over. -/
theorem run_awaitOff_of_orderly {m : Memory} (hm : m.Orderly waits) (hname : waits name)
    (hpolls : (m.polls.get? name).getD 0 < 0) (hcall : (m.call (.isActive .domain name)).1 = .ok true)
    (deadline : Binary64) (looks : Nat) :
    (m.run (awaitOff name deadline looks).run).1 = .ok false ∧
      (m.run (awaitOff name deadline looks).run).2.tables = m.tables ∧
      (m.run (awaitOff name deadline looks).run).2.disruptions = m.disruptions := by
  obtain ⟨r, hfind, hserve⟩ := Tables.exists_of_bind_eq_ok (Memory.serve_eq_of_call_eq_ok hcall)
  have hr := Tables.get?_of_find hfind
  have hclosing := hm.rests name hname r hr
  have hactive : r.active = true := by
    have hseen : r.seen.active = true := (Prod.mk.inj (Except.ok.inj hserve)).1
    rwa [StoredResource.seen_eq_self hclosing] at hseen
  have hunstruck : (m.receive (.isActive .domain name)).1 = none := by
    rw [Memory.call_eq] at hcall
    split at hcall
    · exact absurd hcall (by simp)
    · assumption
  exact run_awaitOff_of_stays hr hactive hclosing hunstruck (hm.looks name hname hpolls) deadline looks

/-- **The wait for a guest agrees**, unless the guest is going to shut down and has not been asked to. -/
theorem relates_waitForShutdown (hname : waits name) (hP : P (.resource .domain name)) (timeout : Binary64) :
    Relates (fun m n => Memory.Twins waits P m n ∧ ∀ r, m.tables.get? .domain name = some r →
        r.active = true → (m.polls.get? name).getD 0 < 0)
      (waitForShutdown name timeout).run (waitForShutdown name timeout).run
      fun a b m n => a = b ∧ Memory.Twins waits P m n := by
  rintro m n ⟨h, hstays⟩
  have hstart : ∀ o : Memory, o.run (waitForShutdown name timeout).run =
      o.run (awaitOff name (o.clock.add timeout) (timeout.ceilNat + 7 + 1)).run := fun o =>
    Memory.run_ask o .now _
  rw [hstart, hstart]
  obtain ⟨hreply, htwins⟩ := h.call (c := .isActive .domain name) fun x hx => by
    obtain rfl : x = .resource .domain name := hx
    exact hP
  rcases hm : m.call (.isActive .domain name) with ⟨reply, m'⟩
  rcases hn : n.call (.isActive .domain name) with ⟨reply', n'⟩
  rw [hm, hn] at hreply htwins
  obtain rfl : reply = reply' := hreply
  cases reply with
  | error e =>
    rw [run_awaitOff_of_error hm, run_awaitOff_of_error hn]
    exact ⟨rfl, htwins⟩
  | ok on =>
    cases on with
    | false =>
      rw [run_awaitOff_of_off hm, run_awaitOff_of_off hn]
      exact ⟨rfl, htwins⟩
    | true =>
      have hcall : (m.call (.isActive .domain name)).1 = .ok true := by rw [hm]
      -- a guest at rest that is found on stays on, however often it is looked at
      have hpolls : (m.polls.get? name).getD 0 < 0 := by
        obtain ⟨r, hfind, hserve⟩ := Tables.exists_of_bind_eq_ok (Memory.serve_eq_of_call_eq_ok hcall)
        have hr := Tables.get?_of_find hfind
        have hseen : r.seen.active = true := (Prod.mk.inj (Except.ok.inj hserve)).1
        rw [StoredResource.seen_eq_self (h.left.rests name hname r hr)] at hseen
        exact hstays r hr hseen
      obtain ⟨hvalue, htables, hstore⟩ := run_awaitOff_of_orderly h.left hname hpolls hcall
        (m.clock.add timeout) (timeout.ceilNat + 7 + 1)
      obtain ⟨hvalue', htables', hstore'⟩ := run_awaitOff_of_orderly h.right hname (h.polls ▸ hpolls)
        (by rw [hn]) (n.clock.add timeout) (timeout.ceilNat + 7 + 1)
      refine ⟨by rw [hvalue, hvalue'], h.left.run _, h.right.run _, fun x hx => ?_, ?_, fun c hc => ?_⟩
      · rw [htables, htables']
        exact h.same x hx
      · rw [Memory.polls_run, Memory.polls_run]
        exact h.polls
      · rw [hstore, hstore']
        exact h.failures c hc

/-- The wait for any other guest can depend on what time it is: a guest that is still on at the second look is off
at the third, for which there is time from 0 on, and from 1 on, where the time that is given is rounded down, there
is not. -/
theorem waitForShutdown_depends_on_clock :
    let timeout := Binary64.finite false 0x10000000000001 (-52)
    let slow (clock : Binary64) : Memory :=
      { tables := { domains := [("vm", { document := "", active := true, closing := some 2 })] }, clock }
    (((slow (.ofInt 0)).run (waitForShutdown "vm" timeout).run).1).toOption = some true ∧
      (((slow (.ofInt 1)).run (waitForShutdown "vm" timeout).run).1).toOption = some false := by
  decide +kernel

theorem run_change_of_ok {α : Type} {m n : Memory} {op : Operation} {c : Call} {a : c.Answer}
    {f : Unit → Work α} (h : m.call c = (.ok a, n)) :
    m.run (Work.change false op c >>= f).run = n.run (f ()).run := by
  refine (Memory.run_ask m (.call c) _).trans ?_
  rw [show m.answer (.call c) = _ from h]
  rfl

theorem run_change_of_error {α : Type} {m n : Memory} {op : Operation} {c : Call} {e : HostError}
    {f : Unit → Work α} (h : m.call c = (.error e, n)) :
    m.run (Work.change false op c >>= f).run = (.error (.failed op e.message e.failureKind), n) := by
  refine (Memory.run_ask m (.call c) _).trans ?_
  rw [show m.answer (.call c) = _ from h]
  rfl

/-- **A restart agrees.** -/
theorem agrees_restartNow {dry : Bool} (hname : dry = false → waits name) (hP : P (.resource .domain name))
    (timeout : Binary64) :
    Agrees waits P (restartNow dry timeout name).run := by
  cases dry with
  | true => exact .pure _
  | false =>
    have hcalls : ∀ {c : Call}, (∀ x, c.Reads x → x = .resource .domain name) → c.Within P :=
      fun hc x hx => hc x hx ▸ hP
    have hwait : Agrees waits P (do
        Work.change false .stop (.stop .domain name false)
        waitForShutdown name timeout : Work Bool).run := by
      intro m n h
      obtain ⟨hreply, htwins⟩ := h.call (c := .stop .domain name false) (hcalls fun x hx => hx)
      rcases hm : m.call (.stop .domain name false) with ⟨reply, m'⟩
      rcases hn : n.call (.stop .domain name false) with ⟨reply', n'⟩
      rw [hm, hn] at hreply htwins
      obtain rfl : reply = reply' := hreply
      cases reply with
      | error e =>
        rw [run_change_of_error hm, run_change_of_error hn]
        exact ⟨rfl, htwins⟩
      | ok u =>
        rw [run_change_of_ok hm, run_change_of_ok hn]
        refine relates_waitForShutdown (hname rfl) hP timeout m' n' ⟨htwins, fun r hr hactive => ?_⟩
        have hcall : (m.call (.stop .domain name false)).1 = .ok u := by rw [hm]
        obtain ⟨s, -, hserve⟩ := Tables.exists_of_bind_eq_ok (Memory.serve_eq_of_call_eq_ok hcall)
        have hafter : (m.call (.stop .domain name false)).2 = m' := by rw [hm]
        have htables : m'.tables = m.tables.put .domain name (s.asked ((m.polls.get? name).getD 0)) := by
          rw [← hafter]
          exact (Prod.mk.inj (Except.ok.inj hserve)).2.symm
        have hpolls : m'.polls = m.polls := by
          rw [← hafter]
          exact Memory.polls_answer m (.call (.stop .domain name false))
        rw [htables, Tables.get?_put_self] at hr
        rw [hpolls]
        have hprompt := h.left.prompt name (hname rfl)
        -- a guest that shuts down at once is off by now
        have hnot : (m.polls.get? name).getD 0 ≠ 0 := fun hzero => by
          rw [← Option.some.inj hr, hzero] at hactive
          exact absurd hactive (by simp [StoredResource.asked, StoredResource.stopped])
        omega
    have heq : restartNow false timeout name = (do
        Work.change false .stop (.stop .domain name false)
        waitForShutdown name timeout) >>= fun off => (do
          if !off then Work.change false .stop (.stop .domain name true)
          Work.change false .start (.start .domain name)
          return if off then "restarted" else "restarted (forced off)") := (LawfulMonad.bind_assoc _ _ _).symm
    rw [heq]
    refine hwait.seq fun off => .seqIf (.change fun _ => hcalls fun x hx => hx) ?_
    exact .seq (.change fun _ => hcalls fun x hx => hx) fun _ => .pure _

/-! ### Work on domains -/

variable {d : Domain}

/-- Whether a running domain is restarted, if it is restarted when its document changes. -/
def MayRestart (d : Domain) : Prop := d.restart.getD (d.active == some true) = true

/-- **The work on a domain agrees** where its entry is settled, if its guest is waited for whenever it is
restarted. -/
theorem agrees_sync {dry : Bool} (hwaits : dry = false → d.MayRestart → waits d.name)
    (hP : P (.resource .domain d.name)) (hnamed : ∀ text, d.written = .ok text → nameInDocument text = d.name)
    (timeout : Binary64) (exists_ : Bool) : Agrees waits P (d.sync dry timeout exists_).run := by
  -- all calls read the entry of the domain and nothing else
  have hcalls : ∀ {c : Call}, (∀ x, c.Reads x → x = .resource .domain d.name) → c.Within P :=
    fun hc x hx => hc x hx ▸ hP
  have hdefine : ∀ text, d.written = .ok text → (Call.define .domain text).Within P := fun text htext =>
    hcalls fun x hx => by rw [← hnamed text htext]; exact hx
  have hstore : Agrees waits P (d.store dry exists_).run := by
    unfold store
    refine .seqWriting fun text htext => ?_
    cases exists_ with
    | true =>
      refine .seq (.attempt (hcalls fun x hx => hx)) fun stored => ?_
      split
      · exact .pure _
      · exact .seq (.change fun _ => hdefine text htext) fun _ => .pure _
    | false => exact .seq (.change fun _ => hdefine text htext) fun _ => .pure _
  have hpower : ∀ outcome running, Agrees waits P (d.power dry timeout outcome running).run := by
    intro outcome running
    unfold power
    split
    · exact .seq (.change fun _ => hcalls fun x hx => hx) fun _ => .pure _
    · split
      · exact .seq (.change fun _ => hcalls fun x hx => hx) fun _ => .pure _
      · split
        · next hwants =>
          have hmay := restart_of_wantsRestart (Bool.and_eq_true_iff.1 hwants).2
          exact .seq (agrees_restartNow (fun hd => hwaits hd hmay) hP timeout) fun _ => .pure _
        · split <;> exact .pure _
  rw [sync_eq]
  refine hstore.seq fun x => ?_
  unfold finish
  dsimp only
  split
  · exact .seq (.attempt (hcalls fun x hx => hx)) fun running => .seq (hpower _ _) fun said => .pure _
  · exact .seq (.pure _) fun running => .seq (hpower _ _) fun said => .pure _

/-- **The task for a domain agrees** where its entry is settled. -/
theorem agrees_task {dry : Bool} (hplain : Text.ArePlain d.texts)
    (hwaits : dry = false → d.MayRestart → waits d.name) (hP : P (.resource .domain d.name)) (timeout : Binary64)
    (before : List Result) (exists_ : Bool) :
    Agrees waits P (d.task dry timeout before exists_) := by
  unfold task
  dsimp only
  split
  · exact ((agrees_sync hwaits hP (fun _ => nameInDocument_of_written hplain) timeout exists_).supervise
      .domain d.name).bind fun ending => .pure _
  · exact .pure _

end Domain

/-! ### Tasks side by side -/

namespace Talk

/-- Whether a task goes elsewhere and has no results of a sort. -/
def KeepsOff (P : Place → Prop) (S : Result → Prop) (t : Talk Recorded) : Prop :=
  t.Confined (Query.CallsOnly (Call.Avoids P)) (Recorded.All fun x => ¬ S x)

/-- Whether two tasks, one on each of two hosts, are the same and agree, or both keep off. -/
def Parallel (waits : String → Prop) (P : Place → Prop) (S : Result → Prop) (t t' : Talk Recorded) : Prop :=
  (t = t' ∧ Agrees waits P t) ∨ (KeepsOff P S t ∧ KeepsOff P S t')

/-- **Tasks of which each two side by side are the same or keep off** leave twins behind, and their results of the
sort are the same. -/
theorem Parallel.gather {S : Result → Prop} {ts ts' : List (Talk Recorded)}
    (hts : List.Forall₂ (Parallel waits P S) ts ts') {m n : Memory} (h : Memory.Twins waits P m n) :
    Memory.Twins waits P (m.run (VirtualTopology.gather ts)).2 (n.run (VirtualTopology.gather ts')).2 ∧
      ∀ rs rs', (m.run (VirtualTopology.gather ts)).1 = .ok rs →
        (n.run (VirtualTopology.gather ts')).1 = .ok rs' →
        ∀ keep : Result → Bool, (∀ x, keep x = true → S x) → rs.filter keep = rs'.filter keep := by
  induction hts generalizing m n with
  | nil =>
    refine ⟨h, fun rs rs' hrs hrs' keep _ => ?_⟩
    rw [← Except.ok.inj hrs, ← Except.ok.inj hrs']
  | @cons t t' ts ts' ht _ ih =>
    rw [Memory.run_gather_cons, Memory.run_gather_cons]
    obtain ⟨htwins, hfirst⟩ : Memory.Twins waits P (m.run t).2 (n.run t').2 ∧
        ∀ ys ys', (m.run t).1 = .ok ys → (n.run t').1 = .ok ys' →
          ∀ keep : Result → Bool, (∀ x, keep x = true → S x) → ys.filter keep = ys'.filter keep := by
      rcases ht with ⟨rfl, hagrees⟩ | ⟨hoff, hoff'⟩
      · obtain ⟨hvalue, htwins⟩ := hagrees m n h
        refine ⟨htwins, fun ys ys' hys hys' keep _ => ?_⟩
        rw [Except.ok.inj (hys.symm.trans (hvalue.trans hys'))]
      · refine ⟨((h.run_left hoff).symm.run_left hoff').symm, fun ys ys' hys hys' keep hkeep => ?_⟩
        have hnone : ∀ {zs}, Recorded.All (fun x => ¬ S x) (.ok zs) → zs.filter keep = [] := fun hzs =>
          List.filter_eq_nil_iff.2 fun x hx hk => (Recorded.all_ok_iff _).1 hzs x hx (hkeep x hk)
        rw [hnone (hys ▸ hoff.run_value Memory.answer m), hnone (hys' ▸ hoff'.run_value Memory.answer n)]
    obtain ⟨hlast, hrest⟩ := ih htwins
    refine ⟨hlast, fun rs rs' hrs hrs' keep hkeep => ?_⟩
    obtain ⟨ys, zs, hys, hzs, rfl⟩ := Recorded.append_eq_ok_iff.1 hrs
    obtain ⟨ys', zs', hys', hzs', rfl⟩ := Recorded.append_eq_ok_iff.1 hrs'
    rw [List.filter_append, List.filter_append, hfirst ys ys' hys hys' keep hkeep, hrest zs zs' hzs hzs' keep hkeep]

/-- What tasks side by side come to on twins. -/
theorem Parallel.of_run {S : Result → Prop} {ts ts' : List (Talk Recorded)}
    (hts : List.Forall₂ (Parallel waits P S) ts ts') {m m' n n' : Memory} {rs rs' : List Result}
    (h : Memory.Twins waits P m n) (hm : m.run (VirtualTopology.gather ts) = (.ok rs, m'))
    (hn : n.run (VirtualTopology.gather ts') = (.ok rs', n')) :
    Memory.Twins waits P m' n' ∧
      ∀ keep : Result → Bool, (∀ x, keep x = true → S x) → rs.filter keep = rs'.filter keep := by
  obtain ⟨htwins, hsame⟩ := Parallel.gather hts h
  rw [hm, hn] at htwins hsame
  exact ⟨htwins, hsame rs rs' rfl rfl⟩

end Talk

/-- To see what is there of a kind agrees where the listing of the kind is settled. -/
theorem Stock.agrees_take {kind : DefinedKind} (hP : ∀ name, P (.listed kind name)) (managed : Bool) :
    Agrees waits P (take kind managed) := by
  refine (Agrees.call (c := .list kind) fun x hx => ?_).bind fun reply => ?_
  · obtain ⟨name, rfl⟩ := hx
    exact hP name
  · split <;> exact .pure _

/-- The tasks for declared resources are side by side if those for each of them are. -/
theorem Stock.parallel_tasks {α : Type} {S : Result → Prop} (s : Stock) {kind : DefinedKind} {declared : List α}
    {name : α → String} {lost : α → List Result} {task task' : α → Bool → Talk Recorded}
    (h : ∀ a ∈ declared, ∀ b, Parallel waits P S (task a b) (task' a b)) :
    List.Forall₂ (Parallel waits P S) (s.tasks kind declared name lost task)
      (s.tasks kind declared name lost task') := by
  cases s with
  | leftAlone results => exact .cons (.inl ⟨rfl, .pure _⟩) .nil
  | unknown reason => exact .cons (.inl ⟨rfl, .pure _⟩) .nil
  | known names =>
    show List.Forall₂ _ (declared.map _) (declared.map _)
    rw [List.forall₂_map_left_iff, List.forall₂_map_right_iff]
    exact List.forall₂_same.2 fun a ha => h a ha _

end VirtualTopology
