import VirtualTopology.Proofs.Document.RoundTrip

/-!
# Documents are read back

A legible element is written without a character that a reader refuses or changes (`Legible.mem_write`),
so a document is the written form and nothing else. From this and from what the reader makes of
a written element, `Legible.read?_print` says that **a document is read back**, and
`Legible.render_eq` that it can be written in the first place.
-/

namespace VirtualTopology.Element

open Document

/-- A character that a reader takes as it is. -/
def IsKept (c : Char) : Prop := isAllowed c = true ∧ c ≠ '\r'

theorem isKept_of_isAlpha {c : Char} (h : c.isAlpha = true) : IsKept c :=
  ⟨isAllowed_of_isAlpha h, ne_of_isAlpha h (by decide)⟩

theorem isKept_mark {c : Char} (h : c ∈ ['<', '>', '/', ' ', '=', '"', '\n', '&', ';']) : IsKept c := by
  have hall : ∀ d ∈ ['<', '>', '/', ' ', '=', '"', '\n', '&', ';'],
      isAllowed d = true ∧ d ≠ '\r' := by decide
  exact hall c h

theorem isKept_of_isWord {cs : List Char} (h : isWord cs = true) : ∀ c ∈ cs, IsKept c :=
  fun c hc => isKept_of_isAlpha (isAlpha_of_isWord h c hc)

theorem isKept_escape {s : String} (h : IsSettled s) : ∀ c ∈ escape s, IsKept c :=
  all_escape h (fun _ => isKept_of_isAlpha) (isKept_mark (by simp)) (isKept_mark (by simp))

theorem isKept_newLine (n : Nat) : ∀ c ∈ newLine n, IsKept c := by
  intro c hc
  rcases List.mem_cons.1 hc with rfl | hc
  · exact isKept_mark (by simp)
  · obtain rfl := (List.mem_replicate.1 hc).2
    exact isKept_mark (by simp)

theorem isKept_writeAttributes {attributes : List (String × String)}
    (ha : LegibleAttributes attributes) (hvalues : ∀ a ∈ attributes, IsSettled a.2) :
    ∀ c ∈ writeAttributes attributes, IsKept c := by
  intro c hc
  obtain ⟨a, hmem, hc⟩ := List.mem_flatMap.1 hc
  simp only [List.cons_append, List.mem_cons, List.mem_append, List.not_mem_nil, or_false] at hc
  rcases hc with rfl | (hc | rfl | rfl | hc) | rfl
  · exact isKept_mark (by simp)
  · exact isKept_of_isWord (ha.word a hmem) c hc
  · exact isKept_mark (by simp)
  · exact isKept_mark (by simp)
  · exact isKept_escape (hvalues a hmem) c hc
  · exact isKept_mark (by simp)

theorem isKept_writeAll {es : List Element} (h : ∀ e ∈ es, ∀ n, ∀ c ∈ e.write n, IsKept c) (n : Nat) :
    ∀ c ∈ writeAll n es, IsKept c := by
  induction es with
  | nil => simp [writeAll]
  | cons e es ih =>
    intro c hc
    rw [writeAll, List.mem_append, List.mem_append] at hc
    rcases hc with (hc | hc) | hc
    · exact isKept_newLine n c hc
    · exact h e (by simp) n c hc
    · exact ih (fun d hd => h d (by simp [hd])) c hc

namespace Legible

/-- The written form of a legible element is taken as it is. -/
theorem mem_write {e : Element} (he : e.Legible) (indent : Nat) : ∀ c ∈ e.write indent, IsKept c := by
  induction he generalizing indent with
  | @mk tag attributes lead children htag ha hvalues hlead _ ih =>
    have hstart : ∀ c ∈ '<' :: tag.toList ++ writeAttributes attributes, IsKept c := by
      rw [List.cons_append, List.forall_mem_cons, List.forall_mem_append]
      exact ⟨isKept_mark (by simp), isKept_of_isWord htag, isKept_writeAttributes ha hvalues⟩
    have hfinish : ∀ c ∈ '<' :: '/' :: tag.toList ++ ['>'], IsKept c := by
      rw [List.cons_append, List.cons_append, List.forall_mem_cons, List.forall_mem_cons,
        List.forall_mem_append]
      refine ⟨isKept_mark (by simp), isKept_mark (by simp), isKept_of_isWord htag, ?_⟩
      exact fun c hc => isKept_mark (by simp_all)
    have hgt : ∀ {cs : List Char}, (∀ c ∈ cs, IsKept c) → ∀ c ∈ '>' :: cs, IsKept c :=
      fun hcs => List.forall_mem_cons.2 ⟨isKept_mark (by simp), hcs⟩
    unfold write
    split
    · split
      · refine List.forall_mem_append.2 ⟨hstart, ?_⟩
        exact fun c hc => isKept_mark (by simp at hc; rcases hc with rfl | rfl <;> simp)
      · refine List.forall_mem_append.2 ⟨List.forall_mem_append.2 ⟨hstart, ?_⟩, hfinish⟩
        exact hgt (isKept_escape hlead)
    · refine List.forall_mem_append.2 ⟨List.forall_mem_append.2
        ⟨List.forall_mem_append.2 ⟨hstart, ?_⟩, isKept_newLine indent⟩, hfinish⟩
      exact hgt (isKept_writeAll ih _)

end Legible

theorem unifyLines_append {cs : List Char} (h : '\r' ∉ cs) (ds : List Char) :
    Text.unifyLines (cs ++ ds) = cs ++ Text.unifyLines ds := by
  induction cs with
  | nil => rfl
  | cons c cs ih =>
    have hc : c ≠ '\r' := fun hc => h (by simp [hc])
    have hrest := ih fun hm => h (by simp [hm])
    rw [List.cons_append, List.cons_append, ← hrest]
    rw [Text.unifyLines]
    · exact fun _ hcr => absurd hcr hc
    · exact hc

theorem unifyLines_eq_self {cs : List Char} (h : '\r' ∉ cs) : Text.unifyLines cs = cs := by
  have happend := unifyLines_append h []
  rwa [Text.unifyLines, List.append_nil] at happend

theorem unified_eq_self {s : String} (h : IsSettled s) : Text.unified s = s := by
  rw [Text.unified, unifyLines_eq_self fun hm => (h _ hm).2 rfl, String.ofList_toList]

theorem settleAll_eq_map (es : List Element) : settleAll es = es.map settle := by
  induction es with
  | nil => simp [settleAll]
  | cons e es ih => simp [settleAll, ih]

theorem areWritable_eq_all (es : List Element) : areWritable es = es.all isWritable := by
  induction es with
  | nil => simp [areWritable]
  | cons e es ih => simp [areWritable, ih]

theorem readBackAll_eq_map (indent : Nat) (es : List Element) :
    readBackAll indent es = es.map (readBack indent) := by
  induction es with
  | nil => simp [readBackAll]
  | cons e es ih => simp [readBackAll, ih]

namespace Legible

theorem settle_eq {e : Element} (he : e.Legible) : e.settle = e := by
  induction he with
  | @mk tag attributes lead children _ _ _ hlead _ ih =>
    have hall : settleAll children = children := by
      rw [settleAll_eq_map, List.map_congr_left (g := id) ih, List.map_id]
    rw [settle, unified_eq_self hlead, hall]

theorem isWritable_eq {e : Element} (he : e.Legible) : e.isWritable = true := by
  induction he with
  | @mk tag attributes lead children _ _ hvalues hlead _ ih =>
    have hall : areWritable children = true := by
      rw [areWritable_eq_all, List.all_eq_true]
      exact ih
    simp only [isWritable, hall, Bool.and_true, Bool.and_eq_true, List.all_eq_true]
    exact ⟨fun c hc => (hlead c hc).1, fun a ha c hc => (hvalues a ha c hc).1⟩

/-- A legible element can be written, and its text is its written form. -/
theorem render_eq {e : Element} (he : e.Legible) : e.render = .ok e.print := by
  simp [render, he.isWritable_eq, he.settle_eq]

/-- A written element begins with a bracket and a letter, so it begins neither with a byte order mark nor
with a declaration. -/
theorem exists_write_eq {e : Element} (he : e.Legible) (indent : Nat) :
    ∃ c cs, e.write indent = '<' :: c :: cs ∧ c.isAlpha = true := by
  cases he with
  | @mk tag attributes lead children htag _ _ _ _ =>
    obtain ⟨c, cs, htag, hc, -⟩ := exists_cons_of_isWord htag
    unfold write
    rw [htag]
    split
    · split
      · exact ⟨c, _, rfl, hc⟩
      · exact ⟨c, _, rfl, hc⟩
    · exact ⟨c, _, rfl, hc⟩

end Legible

/-- A text that, with line feeds for line ends, begins with an element, holds nothing that a reader refuses or
changes, and leaves a reader with an element, is the document of that element. -/
theorem read?_of_lines {s : String} {written : List Char} (hlines : Text.unifyLines s.toList = written)
    (hkept : ∀ c ∈ written, IsKept c) (hstart : ∃ c cs, written = '<' :: c :: cs ∧ c.isAlpha = true) {e : Element}
    (hrun : ∀ room, ({ definitions := { room } } : Reader).run written =
      some (({ definitions := { room } } : Reader).place e)) : read? s = some e := by
  have hallowed : written.all isAllowed = true :=
    List.all_eq_true.2 fun c hc => (hkept c hc).1
  obtain ⟨c, cs, hw, hc⟩ := hstart
  have hmark : dropMark written = written := by
    rw [hw]
    rfl
  have hdeclaration : dropDeclaration? written = some (false, written) := by
    have hq : c ≠ '?' := ne_of_isAlpha hc (by decide)
    rw [hw]
    simp [dropDeclaration?, Ne.symm hq]
  simp only [read?, readChars?, hlines, hmark, hallowed, hdeclaration, Bool.not_true,
    Bool.false_eq_true, if_false, Option.bind_eq_bind, Option.bind_some]
  rw [hrun]
  rfl

/-- So is one whose line ends are line feeds already. -/
theorem read?_of_run {s : String} (hkept : ∀ c ∈ s.toList, IsKept c)
    (hstart : ∃ c cs, s.toList = '<' :: c :: cs ∧ c.isAlpha = true) {e : Element}
    (hrun : ∀ room, ({ definitions := { room } } : Reader).run s.toList =
      some (({ definitions := { room } } : Reader).place e)) : read? s = some e :=
  read?_of_lines (unifyLines_eq_self fun hm => (hkept _ hm).2 rfl) hkept hstart hrun

/-- A text that is the written form of an element, with line feeds for line ends, is read as that element. -/
theorem Legible.read?_eq {e : Element} (he : e.Legible) {s : String}
    (hlines : Text.unifyLines s.toList = e.write 0) : read? s = some (e.readBack 0) :=
  read?_of_lines hlines (he.mem_write 0) (he.exists_write_eq 0) fun _ =>
    Reader.readsAs_of_legible he _ 0 ⟨rfl, rfl, rfl, rfl⟩ (.inl ⟨rfl, rfl, rfl⟩)

/-- **A written document is read back.** -/
theorem Legible.read?_print {e : Element} (he : e.Legible) : read? e.print = some (e.readBack 0) := by
  have hchars : e.print.toList = e.write 0 := String.toList_ofList
  refine he.read?_eq ?_
  rw [hchars]
  exact unifyLines_eq_self fun hm => (he.mem_write 0 _ hm).2 rfl

end VirtualTopology.Element
