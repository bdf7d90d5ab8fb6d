import VirtualTopology.Pass.Volumes
import VirtualTopology.Proofs.Document.StoredVolume
import VirtualTopology.Proofs.Host.Volumes
import VirtualTopology.Proofs.Pass.Frank

/-!
# Volumes come in line

What becomes of the volume of an entry depends on what is stored of it and on nothing else
(`VolumeEntry.Comes`, one case for each way through the work). The work does in an active pool what the
relation says, and its result is the same in a dry run (`VolumeEntry.exists_comes`).

If the work ends well, the volume is in line (`VolumeEntry.InLine`): work on it once more changes nothing.
-/

namespace VirtualTopology

open Document

namespace VolumeEntry

open Work

/-- Whether an entry asks for a volume that can be written under its name, if it asks for one at all. -/
def IsSound (e : VolumeEntry) : Prop :=
  e.present = true → ∃ v, e.volume = some v ∧ v.name = e.name ∧ Text.ArePlain v.texts

/-- What the work on the volume of an entry comes to: from what is stored of the volume to how the work
ends and what is stored afterwards. -/
inductive Comes (e : VolumeEntry) (pool : String) :
    Option StoredVolume → Except Trouble Result → Option StoredVolume → Prop where
  | absent (away : e.present = false) : Comes e pool none (.ok (e.done pool .unchanged)) none
  | deleted (away : e.present = false) (s : StoredVolume) :
      Comes e pool (some s) (.ok (e.done pool .deleted)) none
  | created {v : Volume} (present : e.present = true) (volume : e.volume = some v)
      (writable : Text.isWritable v.capacity.toBytes = true) :
      Comes e pool none (.ok (e.done pool .created))
        (some (.sized (some v.capacity.toBytes) (.known v.format)))
  | kept {v : Volume} {s : StoredVolume} {x : Element} (present : e.present = true)
      (volume : e.volume = some v) (read : Element.read? s.document = some x)
      (format : x.volumeFormat?.getD v.format = v.format)
      (capacity : ∀ n ∈ x.volumeCapacity?, n = v.capacity.toBytes) :
      Comes e pool (some s) (.ok (e.done pool .unchanged)) (some s)
  | grown {v : Volume} {s : StoredVolume} {x : Element} (present : e.present = true)
      (volume : e.volume = some v) (read : Element.read? s.document = some x)
      (format : x.volumeFormat?.getD v.format = v.format)
      (writable : Text.isWritable v.capacity.toBytes = true) (details : List String) :
      Comes e pool (some s) (.ok (e.done pool .updated details))
        (some (s.resized v.capacity.toBytes))
  | failed (s? : Option StoredVolume) (x : Trouble) (s' : Option StoredVolume) :
      Comes e pool s? (.error x) s'

variable {e : VolumeEntry} {pool : String} {s? s' : Option StoredVolume} {res : Result}

/-- Work on a volume that ends well has a result about the volume. -/
theorem Comes.result (h : e.Comes pool s? (.ok res) s') :
    res.kind = .volume ∧ res.name = e.label pool ∧ res.outcome ≠ .failed := by
  cases h <;> exact ⟨rfl, rfl, by simp [done]⟩

/-! ### Volumes in line -/

/-- Whether a volume is as its entry says. -/
structure InLine (e : VolumeEntry) (s? : Option StoredVolume) : Prop where
  away : e.present = false → s? = none
  present : e.present = true → ∀ v, e.volume = some v → ∃ s x, s? = some s ∧
    Element.read? s.document = some x ∧ x.volumeFormat?.getD v.format = v.format ∧
    ∀ n ∈ x.volumeCapacity?, n = v.capacity.toBytes

/-- **Work on a volume that ends well leaves it in line.** -/
theorem Comes.inLine (h : e.Comes pool s? (.ok res) s') (he : e.IsSound) : e.InLine s' := by
  cases h with
  | absent away => exact ⟨fun _ => rfl, fun hp => absurd hp (by simp [away])⟩
  | deleted away s => exact ⟨fun _ => rfl, fun hp => absurd hp (by simp [away])⟩
  | @created v present volume writable =>
    refine ⟨fun ha => absurd ha (by simp [present]), fun hp w hw => ?_⟩
    obtain rfl : v = w := Option.some.inj (volume.symm.trans hw)
    obtain ⟨v', hv', -, hplain⟩ := he hp
    obtain rfl : v = v' := Option.some.inj (volume.symm.trans hv')
    have hformat : Text.IsPlain v.format := hplain v.format (by simp [Volume.texts])
    refine ⟨_, _, rfl, StoredVolume.read?_document _ fun f hf => ?_, ?_, ?_⟩
    · obtain rfl := Option.some.inj hf
      exact hformat
    · rw [StoredVolume.volumeFormat?_element]
      rfl
    · rw [StoredVolume.volumeCapacity?_element writable]
      exact fun n hn => (Option.some.inj hn).symm
  | @kept v s x present volume read format capacity =>
    refine ⟨fun ha => absurd ha (by simp [present]), fun hp w hw => ?_⟩
    obtain rfl : v = w := Option.some.inj (volume.symm.trans hw)
    exact ⟨s, x, rfl, read, format, capacity⟩
  | @grown v s x present volume read format writable details =>
    refine ⟨fun ha => absurd ha (by simp [present]), fun hp w hw => ?_⟩
    obtain rfl : v = w := Option.some.inj (volume.symm.trans hw)
    -- the size is read as the new one, and the format as before
    obtain ⟨x', hread, hfirst, hformat⟩ := StoredVolume.read?_document_resized read v.capacity.toBytes
    refine ⟨_, x', rfl, hread, ?_, ?_⟩
    · rcases hformat with hformat | hformat
      · rw [hformat]
        rfl
      · rw [hformat, format]
    · rw [StoredVolume.volumeCapacity?_of_first? hfirst writable]
      exact fun n hn => (Option.some.inj hn).symm

/-! ### The work -/

/-- What the work on a volume does in an active pool: its end, and what is stored of the volume
afterwards, unless the run is dry. -/
def Does (e : VolumeEntry) (pool : String) (w : (dry : Bool) → Work Result) (s? : Option StoredVolume)
    (a : Except Trouble Result) (s' : Option StoredVolume) : Prop :=
  ∀ (polls : Table Int) (dry : Bool) (r : StoredResource), r.active = true →
    r.volumes.get? e.name = s? →
    BringsTo polls .pool pool r (w dry) a
      (if dry then r else { r with volumes := r.volumes.assign e.name s' })

/-- Work that changes nothing. -/
theorem does_same {w : Bool → Work Result} {a : Except Trouble Result}
    (h : ∀ (polls : Table Int) (dry : Bool) (r : StoredResource), r.active = true →
      r.volumes.get? e.name = s? → BringsTo polls .pool pool r (w dry) a r) :
    Does e pool w s? a s? := by
  intro polls dry r hactive hs
  refine (h polls dry r hactive hs).mono fun b u ⟨hb, hu⟩ => ⟨hb, ?_⟩
  rw [hu, ← hs, Table.assign_self]
  split <;> rfl

/-- A text in which some sizes stand can be written, or it cannot. -/
theorem stating_cases (sizes : List Nat) (text : String) :
    (stating sizes text = pure text ∧ ∀ n ∈ sizes, Text.isWritable n = true) ∨
      stating sizes text = throw (.unwritable .number) := by
  unfold stating
  split
  · next h => exact .inl ⟨rfl, List.all_eq_true.1 h⟩
  · exact .inr rfl

/-- The work on a volume that is there, once its document has been read. -/
def weigh (e : VolumeEntry) (dry : Bool) (pool : String) (v : Volume) (document : String) :
    Work Result := do
  let stored ← parsed document
  let there := (stored.volumeFormat?).getD v.format
  if there ≠ v.format then
    Work.refuse .read
      ("Volume format is " ++ there ++ ", declared " ++ v.format ++
        "; volumes are never converted")
  let wanted := v.capacity.toBytes
  match stored.volumeCapacity? with
  | none => return e.done pool .unchanged
  | some size =>
      if size = wanted then return e.done pool .unchanged
      if wanted < size then
        Work.refuse .read (← Work.stating [size, wanted]
          s!"Volume is {size} bytes, declared {wanted}; volumes are never shrunk")
      Work.change dry .resize (.resizeVolume pool e.name wanted)
      return e.done pool .updated
        [← Work.stating [size, wanted] s!"grown from {size} to {wanted} bytes"]

theorem adjust_eq (dry : Bool) (v : Volume) :
    e.adjust dry pool v = Work.attempt .read (.readVolume pool e.name) >>= e.weigh dry pool v := rfl

/-- **What the document of a volume leads to**: a refusal, nothing, or another size. -/
theorem weigh_cases (e : VolumeEntry) (pool : String) (v : Volume) (document : String) :
    (∃ x, ∀ dry, e.weigh dry pool v document = throw x) ∨
      ∃ x, Element.read? document = some x ∧ x.volumeFormat?.getD v.format = v.format ∧
        (((∀ n ∈ x.volumeCapacity?, n = v.capacity.toBytes) ∧
            ∀ dry, e.weigh dry pool v document = pure (e.done pool .unchanged)) ∨
          ∃ size text, x.volumeCapacity? = some size ∧ size < v.capacity.toBytes ∧
            ∀ dry, e.weigh dry pool v document = do
              Work.change dry .resize (.resizeVolume pool e.name v.capacity.toBytes)
              return e.done pool .updated [← Work.stating [size, v.capacity.toBytes] text]) := by
  unfold weigh parsed
  cases hread : Element.read? document with
  | none => exact .inl ⟨_, fun dry => rfl⟩
  | some x =>
    simp only [pure_bind]
    -- another format and a smaller declared size are refused; a size that is not known is left alone
    by_cases hformat : x.volumeFormat?.getD v.format = v.format
    · simp only [ne_eq, hformat, not_true_eq_false, if_false]
      cases hcapacity : x.volumeCapacity? with
      | none => exact .inr ⟨x, rfl, hformat, .inl ⟨by simp [hcapacity], fun dry => rfl⟩⟩
      | some size =>
        by_cases hsize : size = v.capacity.toBytes
        · simp only [if_pos hsize]
          refine .inr ⟨x, rfl, hformat, .inl ⟨?_, fun _ => trivial⟩⟩
          rw [hcapacity]
          exact fun n hn => (Option.some.inj hn).symm.trans hsize
        · simp only [if_neg hsize]
          by_cases hless : v.capacity.toBytes < size
          · simp only [if_pos hless]
            rcases stating_cases [size, v.capacity.toBytes]
              s!"Volume is {size} bytes, declared {v.capacity.toBytes}; volumes are never shrunk" with
              ⟨hstating, -⟩ | hstating
            · exact .inl ⟨_, fun dry => by rw [hstating]; rfl⟩
            · exact .inl ⟨_, fun dry => by rw [hstating]; rfl⟩
          · simp only [if_neg hless]
            exact .inr ⟨x, rfl, hformat, .inr ⟨size, _, hcapacity, by omega, fun dry => rfl⟩⟩
    · simp only [ne_eq, hformat, not_false_eq_true, if_true]
      exact .inl ⟨_, fun dry => rfl⟩

/-- What the work on a volume that is there comes to. -/
theorem exists_comes_adjust {v : Volume} (present : e.present = true) (volume : e.volume = some v)
    (pool : String) (s : StoredVolume) :
    ∃ a s', e.Comes pool (some s) a s' ∧ Does e pool (fun dry => e.adjust dry pool v) (some s) a s' := by
  rcases weigh_cases e pool v s.document with ⟨x, hweigh⟩ |
    ⟨x, hread, hformat, ⟨hcapacity, hweigh⟩ | ⟨size, text, -, -, hweigh⟩⟩
  · refine ⟨.error x, some s, .failed _ _ _, does_same fun polls dry r hactive hs => ?_⟩
    rw [adjust_eq]
    refine BringsTo.bind (admits_readVolume hactive hs).attempt ?_
    rw [hweigh]
    exact Brings.throw ⟨rfl, rfl⟩
  · refine ⟨_, _, .kept present volume hread hformat hcapacity, does_same fun polls dry r hactive hs => ?_⟩
    rw [adjust_eq]
    refine BringsTo.bind (admits_readVolume hactive hs).attempt ?_
    rw [hweigh]
    exact Brings.pure ⟨rfl, rfl⟩
  · have hresize : ∀ {a : Except Trouble Result},
        (∀ (polls : Table Int) (r : StoredResource), BringsTo polls .pool pool r
          (do return e.done pool .updated [← Work.stating [size, v.capacity.toBytes] text]) a r) →
        Does e pool (fun dry => e.adjust dry pool v) (some s) a
          (some (s.resized v.capacity.toBytes)) := by
      intro a ha polls dry r hactive hs
      show BringsTo polls .pool pool r (e.adjust dry pool v) a _
      rw [adjust_eq]
      refine BringsTo.bind (admits_readVolume hactive hs).attempt ?_
      rw [hweigh]
      exact BringsTo.bind ((admits_resizeVolume hactive hs _).change dry) (ha polls _)
    -- the volume has been resized, also if the numbers in the report cannot be written
    rcases stating_cases [size, v.capacity.toBytes] text with ⟨hstating, hwritable⟩ | hstating
    · refine ⟨_, _, .grown present volume hread hformat (hwritable _ (by simp)) [text], hresize ?_⟩
      intro polls r
      rw [hstating]
      exact BringsTo.bind (Brings.pure ⟨rfl, rfl⟩) (Brings.pure ⟨rfl, rfl⟩)
    · refine ⟨_, _, .failed _ (.unwritable .number) _, hresize ?_⟩
      intro polls r
      rw [hstating]
      exact BringsTo.stop (Brings.throw ⟨rfl, rfl⟩)

/-- **What the work on the volume of an entry comes to** in an active pool; in a dry run the pool need not
be there if the volume is not. -/
theorem exists_comes (he : e.IsSound) (pool : String) (s? : Option StoredVolume) :
    ∃ a s', e.Comes pool s? a s' ∧ Does e pool (fun dry => e.sync dry pool s?.isSome) s? a s' ∧
      (s? = none → (e.sync true pool false).run = .done a) := by
  -- the cases are those of the work: whether the volume is declared present, and whether it is there
  cases hp : e.present with
  | false =>
    cases s? with
    | none =>
      refine ⟨_, _, .absent hp, does_same fun polls dry r _ _ => ?_, fun _ => ?_⟩
      · rw [sync, hp]
        exact Brings.pure ⟨rfl, rfl⟩
      · rw [sync, hp]
        rfl
    | some s =>
      refine ⟨_, _, .deleted hp s, fun polls dry r hactive hs => ?_, fun h => absurd h (by simp)⟩
      show BringsTo polls .pool pool r (e.sync dry pool true) _ _
      rw [sync, hp]
      exact BringsTo.bind ((admits_deleteVolume hactive hs).change dry) (Brings.pure ⟨rfl, rfl⟩)
  | true =>
    obtain ⟨v, hv, hname, hplain⟩ := he hp
    have hsync : ∀ dry exists_, e.sync dry pool exists_ =
        if exists_ then e.adjust dry pool v
        else do
          let text ← Work.writing v.written
          Work.change dry .create (.createVolume pool text)
          return e.done pool .created := by
      intro dry exists_
      rw [sync, hp, hv]
      rfl
    cases s? with
    | some s =>
      obtain ⟨a, s', hcomes, hdoes⟩ := exists_comes_adjust hp hv pool s
      refine ⟨a, s', hcomes, fun polls dry r hactive hs => ?_, fun h => absurd h (by simp)⟩
      show BringsTo polls .pool pool r (e.sync dry pool true) _ _
      rw [hsync, if_pos rfl]
      exact hdoes polls dry r hactive hs
    | none =>
      have hwritten := Volume.written_eq hplain
      cases hwritable : Text.isWritable v.capacity.toBytes with
      | false =>
        rw [hwritable] at hwritten
        refine ⟨.error (.unwritable .number), none, .failed _ _ _,
          does_same fun polls dry r _ _ => ?_, fun _ => ?_⟩
        · show BringsTo polls .pool pool r (e.sync dry pool false) _ _
          rw [hsync, hwritten]
          exact BringsTo.stop (Brings.throw ⟨rfl, rfl⟩)
        · rw [hsync, hwritten]
          rfl
      | true =>
        rw [hwritable] at hwritten
        have hread := (Volume.legible hplain).read?_print
        have hnamed := (Volume.nameInDocument_written hplain).trans hname
        -- what the host keeps of the new volume is read off its document
        have hstored : StoredVolume.ofDocument (v.document.readBack 0)
            = .sized (some v.capacity.toBytes) (.known v.format) := by
          rw [StoredVolume.ofDocument, Volume.volumeCapacity?_document hwritable,
            Volume.volumeFormat?_document hplain]
          rfl
        refine ⟨_, _, .created hp hv hwritable, fun polls dry r hactive hs => ?_, fun _ => ?_⟩
        · show BringsTo polls .pool pool r (e.sync dry pool false) _ _
          rw [hsync, hwritten]
          refine BringsTo.bind (Brings.pure ⟨rfl, rfl⟩) (BringsTo.bind
            ((admits_createVolume hactive hread hnamed).change dry) (Brings.pure ⟨rfl, ?_⟩))
          rw [hstored]
          rfl
        · rw [hsync, hwritten]
          rfl

/-- A call that the work on the volume of an entry can make: its document is read, and, unless the run is
dry, a volume that is declared is made or gets the declared size, and one that is declared away is deleted. -/
inductive Makes (e : VolumeEntry) (dry : Bool) (pool : String) : Call → Prop where
  | read : Makes e dry pool (.readVolume pool e.name)
  | create (real : dry = false) (present : e.present = true) {v : Volume} (volume : e.volume = some v)
      {text : String} (written : v.written = .ok text) : Makes e dry pool (.createVolume pool text)
  | delete (real : dry = false) (away : e.present = false) : Makes e dry pool (.deleteVolume pool e.name)
  | resize (real : dry = false) (present : e.present = true) {v : Volume} (volume : e.volume = some v) :
      Makes e dry pool (.resizeVolume pool e.name v.capacity.toBytes)

/-- **The calls of the work on a volume.** -/
theorem frank_makes (e : VolumeEntry) (dry : Bool) (pool : String) (exists_ : Bool) :
    Frank (e.Makes dry pool) (fun res => res.kind = .volume ∧ res.name = e.label pool)
      (e.sync dry pool exists_).run := by
  cases hp : e.present with
  | false =>
    rw [sync, hp]
    cases exists_ with
    | false => exact .pure ⟨rfl, rfl⟩
    | true => exact .seq (.change fun hd => .delete hd hp) fun _ => .pure ⟨rfl, rfl⟩
  | true =>
    rw [sync, hp]
    cases hv : e.volume with
    | none => exact .pure ⟨rfl, rfl⟩
    | some v =>
      cases exists_ with
      | false =>
        refine (Frank.writing v.written).bind fun text htext => ?_
        exact .seq (.change fun hd => .create hd hp hv htext) fun _ => .pure ⟨rfl, rfl⟩
      | true =>
        show Frank _ _ (e.adjust dry pool v).run
        rw [adjust_eq]
        refine .seq (.attempt .read) fun document => ?_
        rcases weigh_cases e pool v document with ⟨x, hweigh⟩ |
          ⟨x, -, -, ⟨-, hweigh⟩ | ⟨size, text, -, -, hweigh⟩⟩
        · rw [hweigh]
          exact .throw x
        · rw [hweigh]
          exact .pure ⟨rfl, rfl⟩
        · rw [hweigh]
          exact .seq (.change fun hd => .resize hd hp hv) fun _ => .seq .stating fun _ => .pure ⟨rfl, rfl⟩

/-- A call that the work on a volume can make goes to its pool. -/
theorem Makes.about {dry : Bool} {c : Call} (h : e.Makes dry pool c) : c.IsAbout .pool pool := by
  cases h <;> rfl

/-- In a dry run the work on a volume only looks. -/
theorem Makes.reading {c : Call} (h : e.Makes true pool c) : c.isReading = true := by
  cases h with
  | read => rfl
  | create real _ _ _ => exact absurd real (by simp)
  | delete real _ => exact absurd real (by simp)
  | resize real _ _ => exact absurd real (by simp)

/-- The work on the volume of a sound entry goes to the volume. -/
theorem Makes.isWithin (he : e.IsSound) {dry : Bool} {c : Call} (h : e.Makes dry pool c) :
    c.IsWithin pool e.name := by
  cases h with
  | read => exact .read
  | @create _ present v volume text written =>
    obtain ⟨v', hv', hname, hplain⟩ := he present
    obtain rfl : v = v' := Option.some.inj (volume.symm.trans hv')
    rw [Volume.written_eq hplain] at written
    split at written
    · rw [← Except.ok.inj written]
      exact .create ((Volume.nameInDocument_written hplain).trans hname)
    · exact absurd written (by simp)
  | delete _ _ => exact .delete
  | resize _ _ _ => exact .resize _

/-- The work on the volume of an entry goes to the volume. -/
theorem frank_sync (he : e.IsSound) (dry : Bool) (pool : String) (exists_ : Bool) :
    Frank (fun c => c.IsWithin pool e.name ∧ (dry = true → c.isReading = true))
      (fun res => res.kind = .volume ∧ res.name = e.label pool) (e.sync dry pool exists_).run := by
  refine (e.frank_makes dry pool exists_).mono (fun c hc => ⟨hc.isWithin he, ?_⟩) fun _ => id
  rintro rfl
  exact hc.reading

end VolumeEntry

end VirtualTopology
