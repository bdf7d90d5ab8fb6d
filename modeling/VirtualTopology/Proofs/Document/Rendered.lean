import VirtualTopology.Proofs.Document.Declared

/-!
# Whatever renders is read back

The texts of a declaration need not be plain. As long as its document can be written at all, it is read back: line
ends become line feeds, in character data before it is written and in the values of attributes when it is read, and
nothing else is lost (`Element.Framed.read?_render`). What counts is the frame of the document, its names
(`Element.Framed`), which is the same for all declarations of a kind.

The tree that is read is the element itself with other texts (`Element.asRead`); tags, names of attributes and the
order of the children are those of the element.
-/

namespace VirtualTopology

open Document

/-! ### Line ends inside escaped texts -/

namespace Text

theorem mem_unifyLines {cs : List Char} {c : Char} (h : c ∈ unifyLines cs) : c = '\n' ∨ c ∈ cs := by
  fun_induction unifyLines cs with
  | case1 cs ih =>
    rcases List.mem_cons.1 h with rfl | h
    · exact .inl rfl
    · exact (ih h).imp_right fun hc => by simp [hc]
  | case2 cs _ ih =>
    rcases List.mem_cons.1 h with rfl | h
    · exact .inl rfl
    · exact (ih h).imp_right fun hc => by simp [hc]
  | case3 c' cs _ _ ih =>
    rcases List.mem_cons.1 h with rfl | h
    · exact .inr (by simp)
    · exact (ih h).imp_right fun hc => by simp [hc]
  | case4 => exact absurd h (by simp)

theorem unifyLines_cr {cs : List Char} (h : cs.head? ≠ some '\n') :
    unifyLines ('\r' :: cs) = '\n' :: unifyLines cs := by
  cases cs with
  | nil => rfl
  | cons c cs =>
    have hc : c ≠ '\n' := fun hc => h (by simp [hc])
    rw [unifyLines]
    exact fun ds hds => hc (List.cons.inj hds).1

theorem unifyLines_cons {c : Char} (hc : c ≠ '\r') (cs : List Char) :
    unifyLines (c :: cs) = c :: unifyLines cs := by
  have hline : '\r' ∉ [c] := by simpa using Ne.symm hc
  exact Element.unifyLines_append hline cs

theorem unified_unified (s : String) : unified (unified s) = unified s := by
  rw [unified, unified, String.toList_ofList, Element.unifyLines_eq_self (not_mem_unifyLines _)]

end Text

namespace Document

/-- What is written for a character begins with a line feed only for a line feed. -/
theorem exists_escapeChar_eq {c : Char} (h : c ≠ '\n') : ∃ d es, escapeChar c = d :: es ∧ d ≠ '\n' := by
  rcases escapeChar_cases c with ⟨name, he, -⟩ | ⟨he, -⟩
  · exact ⟨_, _, he, by decide⟩
  · exact ⟨c, [], he, h⟩

theorem not_mem_escapeChar {c : Char} (h : c ≠ '\r') : '\r' ∉ escapeChar c := by
  intro hmem
  rcases mem_escapeChar hmem with hd | hd | hd | ⟨rfl, -⟩
  · exact absurd hd (by decide)
  · exact absurd hd (by decide)
  · exact absurd hd (by decide)
  · exact h rfl

/-- **Line ends are unified inside an escaped text**, up to a character behind it that ends no line. -/
theorem unifyLines_escape (cs : List Char) {q : Char} (hq : q ≠ '\n') (ds : List Char) :
    Text.unifyLines (cs.flatMap escapeChar ++ q :: ds) =
      (Text.unifyLines cs).flatMap escapeChar ++ Text.unifyLines (q :: ds) := by
  have hcr : escapeChar '\r' = ['\r'] := rfl
  have hlf : escapeChar '\n' = ['\n'] := rfl
  fun_induction Text.unifyLines cs with
  | case1 cs ih =>
    rw [List.flatMap_cons, List.flatMap_cons, hcr, hlf, List.flatMap_cons, hlf]
    exact congrArg ('\n' :: ·) ih
  | case2 cs hcs ih =>
    have hhead : (cs.flatMap escapeChar ++ q :: ds).head? ≠ some '\n' := by
      cases cs with
      | nil => simpa using hq
      | cons c cs =>
        have hc : c ≠ '\n' := fun hc => hcs cs (by rw [hc])
        obtain ⟨d, es, hescape, hd⟩ := exists_escapeChar_eq hc
        rw [List.flatMap_cons, hescape]
        simpa using hd
    rw [List.flatMap_cons, hcr, List.flatMap_cons, hlf, List.cons_append, List.nil_append, List.cons_append,
      Text.unifyLines_cr hhead, ih]
    rfl
  | case3 c cs _ hc ih =>
    rw [List.flatMap_cons, List.flatMap_cons, List.append_assoc, List.append_assoc,
      Element.unifyLines_append (not_mem_escapeChar hc), ih]
  | case4 => rfl

end Document

namespace Element

/-! ### Frames -/

/-- An element with names that a reader takes as they are, whatever the texts are. -/
inductive Framed : Element → Prop where
  | mk {tag : String} {attributes : List (String × String)} {lead : String} {children : List Element}
      (word : isWord tag.toList = true) (legible : LegibleAttributes attributes)
      (inside : ∀ c ∈ children, Framed c) : Framed { tag, attributes, lead, children }

@[simp] theorem framed_mk_iff (tag : String) (attributes : List (String × String)) (lead : String)
    (children : List Element) :
    Framed { tag, attributes, lead, children } ↔
      isWord tag.toList = true ∧ LegibleAttributes attributes ∧ ∀ c ∈ children, c.Framed :=
  ⟨fun ⟨h₁, h₂, h₃⟩ => ⟨h₁, h₂, h₃⟩, fun ⟨h₁, h₂, h₃⟩ => ⟨h₁, h₂, h₃⟩⟩

mutual

/-- The element with line feeds for all line ends. -/
def unify : Element → Element
  | { tag, attributes, lead, children } =>
      { tag, attributes := attributes.map fun a => (a.1, Text.unified a.2)
        lead := Text.unified lead
        children := unifyAll children }

/-- Several elements with line feeds for all line ends. -/
def unifyAll : List Element → List Element
  | [] => []
  | e :: es => e.unify :: unifyAll es

end

theorem unifyAll_eq_map (es : List Element) : unifyAll es = es.map unify := by
  induction es with
  | nil => simp [unifyAll]
  | cons e es ih => simp [unifyAll, ih]

/-- What a reader makes of characters, also with others behind them. -/
def SettlesAs (cs ds : List Char) : Prop := ∀ es, Text.unifyLines (cs ++ es) = ds ++ Text.unifyLines es

theorem SettlesAs.append {cs ds cs' ds' : List Char} (h : SettlesAs cs ds) (h' : SettlesAs cs' ds') :
    SettlesAs (cs ++ cs') (ds ++ ds') := by
  intro es
  rw [List.append_assoc, List.append_assoc, h, h']

theorem settlesAs_self {cs : List Char} (h : '\r' ∉ cs) : SettlesAs cs cs := unifyLines_append h

theorem settlesAs_escape (s : String) {q : Char} (hq : q ≠ '\n') (hq' : q ≠ '\r') :
    SettlesAs (escape s ++ [q]) (escape (Text.unified s) ++ [q]) := by
  intro es
  rw [List.append_assoc, List.append_assoc, List.singleton_append, escape, unifyLines_escape _ hq,
    Text.unifyLines_cons hq', escape, Text.unified, String.toList_ofList]
  rfl

theorem not_mem_of_isWord {cs : List Char} (h : isWord cs = true) : '\r' ∉ cs :=
  fun hmem => absurd (isAlpha_of_isWord h _ hmem) (by decide)

theorem settlesAs_writeAttributes {attributes : List (String × String)} (h : LegibleAttributes attributes) :
    SettlesAs (writeAttributes attributes) (writeAttributes (attributes.map fun a => (a.1, Text.unified a.2))) := by
  induction attributes with
  | nil => exact settlesAs_self (by simp [writeAttributes])
  | cons a as ih =>
    obtain ⟨hword, -, -, hrest⟩ := (legibleAttributes_cons_iff a as).1 h
    have hname : SettlesAs (' ' :: a.1.toList ++ ['=', '"']) (' ' :: a.1.toList ++ ['=', '"']) :=
      settlesAs_self (by simpa using not_mem_of_isWord hword)
    have hvalue := settlesAs_escape a.2 (q := '"') (by decide) (by decide)
    simpa [writeAttributes] using (hname.append hvalue).append (ih hrest)

theorem settlesAs_writeAll {es : List Element} (indent : Nat)
    (h : ∀ e ∈ es, ∀ n, SettlesAs (e.settle.write n) (e.unify.write n)) :
    SettlesAs (writeAll indent (es.map settle)) (writeAll indent (es.map unify)) := by
  induction es with
  | nil => exact settlesAs_self (by simp [writeAll])
  | cons e es ih =>
    have hline : SettlesAs (newLine indent) (newLine indent) := settlesAs_self (by simp [newLine])
    exact (hline.append (h e (by simp) indent)).append (ih fun d hd => h d (by simp [hd]))

/-- **A written element settles as the element with line feeds.** Each text stands before a mark, so that no line
end reaches beyond it. -/
theorem settlesAs_write {e : Element} (he : e.Framed) (indent : Nat) :
    SettlesAs (e.settle.write indent) (e.unify.write indent) := by
  induction he generalizing indent with
  | @mk tag attributes lead children hword hattributes _ ih =>
    have htag := not_mem_of_isWord hword
    have hstart : SettlesAs ('<' :: tag.toList ++ writeAttributes attributes)
        ('<' :: tag.toList ++ writeAttributes (attributes.map fun a => (a.1, Text.unified a.2))) :=
      (settlesAs_self (by simpa using htag)).append (settlesAs_writeAttributes hattributes)
    have hmark : ∀ cs : List Char, '\r' ∉ cs → SettlesAs cs cs := fun cs => settlesAs_self
    rw [settle, unify, settleAll_eq_map, unifyAll_eq_map, write, write]
    cases children with
    | nil =>
      by_cases hlead : (Text.unified lead).isEmpty
      · simpa [hlead] using hstart.append (hmark ['/', '>'] (by simp))
      · have htext := settlesAs_escape (Text.unified lead) (q := '<') (by decide) (by decide)
        rw [Text.unified_unified] at htext
        have hend := hmark ('/' :: tag.toList ++ ['>']) (by simpa using htag)
        simpa [hlead] using ((hstart.append (hmark ['>'] (by simp))).append htext).append hend
    | cons c cs =>
      have hall := settlesAs_writeAll (indent + 2) ih
      have hend := hmark (newLine indent ++ ('<' :: '/' :: tag.toList ++ ['>'])) (by simpa [newLine] using htag)
      simpa using ((hstart.append (hmark ['>'] (by simp))).append hall).append hend

/-! ### Reading back -/

theorem isSettled_unified {s : String} (h : s.toList.all isAllowed = true) : IsSettled (Text.unified s) := by
  intro c hc
  rw [Text.unified, String.toList_ofList] at hc
  refine ⟨?_, fun hcr => Text.not_mem_unifyLines _ (hcr ▸ hc)⟩
  rcases Text.mem_unifyLines hc with rfl | hmem
  · decide
  · exact List.all_eq_true.1 h c hmem

/-- With line feeds for line ends, an element that can be written is legible. -/
theorem Framed.legible_unify {e : Element} (he : e.Framed) (hw : e.isWritable = true) : e.unify.Legible := by
  induction he with
  | @mk tag attributes lead children hword hattributes _ ih =>
    rw [isWritable, areWritable_eq_all] at hw
    simp only [Bool.and_eq_true, List.all_eq_true] at hw
    obtain ⟨⟨hlead, hvalues⟩, hchildren⟩ := hw
    have hnames : (attributes.map fun a => (a.1, Text.unified a.2)).map (·.1) = attributes.map (·.1) := by simp
    rw [unify, unifyAll_eq_map, legible_mk_iff]
    refine ⟨hword, ⟨?_, ?_, hnames ▸ hattributes.nodup⟩, ?_, isSettled_unified (List.all_eq_true.2 hlead), ?_⟩
    · exact List.forall_mem_map.2 fun a ha => hattributes.word a ha
    · exact List.forall_mem_map.2 fun a ha => hattributes.ne_xmlns a ha
    · exact List.forall_mem_map.2 fun a ha => isSettled_unified (List.all_eq_true.2 (hvalues a ha))
    · exact List.forall_mem_map.2 fun c hc => ih c hc (hchildren c hc)

/-- What is read of an element that was written at an indentation, whatever its texts are. -/
def asRead (indent : Nat) (e : Element) : Element := e.unify.readBack indent

/-- **Whatever renders is read back.** -/
theorem Framed.read?_render {e : Element} (he : e.Framed) {text : String} (h : e.render = .ok text) :
    read? text = some (e.asRead 0) := by
  rw [render] at h
  split at h
  · next hwritable =>
    obtain rfl := Except.ok.inj h
    have hlines : Text.unifyLines e.settle.print.toList = e.unify.write 0 := by
      have hall := settlesAs_write he 0 []
      rwa [List.append_nil, Text.unifyLines, List.append_nil, ← String.toList_ofList (l := e.settle.write 0)] at hall
    exact (he.legible_unify hwritable).read?_eq hlines
  · exact absurd h (by simp)

end Element

end VirtualTopology
