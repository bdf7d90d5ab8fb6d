import Mathlib.Data.List.Nodup
import VirtualTopology.Document.Reader
import VirtualTopology.Proofs.Document.Names

/-!
# Written documents are read back

`Element.Legible.read?_print` says what the reader makes of a written element: the same element, with white
space in attribute values as spaces, and with the line break and the indentation in front of the
first child as character data (`Element.readBack`). It holds of the elements that are `Legible`:
their names are words, no attribute is given twice, and an element has text or children but not both.

The proof follows the reader through the pieces of a written element. Reading the whole of it in
front of any further text leaves the reader as it was, with the element put behind its siblings
(`readsAs_of_legible`, by induction on the element).
-/

namespace VirtualTopology.Document

/-- The scope of a document that declares no name space. -/
def bareScope : Scope := [("xml".toList, xmlAddress)]

namespace Reader

/-! ### Readers without definitions -/

/-- The reader, gone over to another mode. -/
def turn (r : Reader) (mode : Mode) : Reader := { r with mode }

/-- A reader that knows no entity and no rule for attributes, in a scope without declarations. It reads
the document itself and not the text of an entity. -/
structure Bare (r : Reader) : Prop where
  entities : r.definitions.entities = {}
  rules : r.definitions.rules = []
  scope : r.scope = bareScope
  outside : r.inEntity = false

variable {r : Reader}

@[simp] theorem turn_mode (r : Reader) (m : Mode) : (r.turn m).mode = m := rfl

@[simp] theorem turn_open (r : Reader) (m : Mode) : (r.turn m).open_ = r.open_ := rfl

@[simp] theorem turn_root (r : Reader) (m : Mode) : (r.turn m).root = r.root := rfl

@[simp] theorem turn_turn (r : Reader) (m n : Mode) : (r.turn m).turn n = r.turn n := rfl

theorem turn_self (h : r.mode = m) : r.turn m = r := by rw [← h]; rfl

theorem Bare.turn (h : r.Bare) (m : Mode) : (r.turn m).Bare := ⟨h.entities, h.rules, h.scope, h.outside⟩

/-- No entity is put in place. -/
def noExpansion : Reader → List Char → Option Reader := fun _ _ => none

/-- A bare reader is at depth zero. -/
theorem Bare.step_eq (h : r.Bare) (c : Char) : r.step c = r.stepWith 0 noExpansion c := by
  rw [step, h.entities]
  rfl

theorem Bare.step_turn (h : r.Bare) (m : Mode) (c : Char) :
    (r.turn m).step c = (r.turn m).stepWith 0 noExpansion c := (h.turn m).step_eq c

/-! ### Words in tags -/

/-- A step that collects a character leads through all characters of a class. -/
theorem run_collect {p : Char → Prop} {mode : List Char → Mode}
    (hstep : ∀ soFar c, p c → (r.turn (mode soFar)).step c = some (r.turn (mode (c :: soFar))))
    {cs : List Char} (hcs : ∀ c ∈ cs, p c) (soFar : List Char) :
    (r.turn (mode soFar)).run cs = some (r.turn (mode (cs.reverse ++ soFar))) := by
  induction cs generalizing soFar with
  | nil => rfl
  | cons c cs ih =>
    rw [run_cons, hstep soFar c (hcs c (by simp)), Option.bind_some,
      ih (fun d hd => hcs d (by simp [hd]))]
    simp

theorem continuesName_of_isAlpha {c : Char} (h : c.isAlpha = true) : continuesName c = true := by
  simp [continuesName, isNameChar_of_isAlpha h]

/-- The name of a start tag. -/
theorem Bare.run_startName (h : r.Bare) {name : List Char} (hname : isWord name = true)
    (hroot : r.open_ = [] → r.root = none) :
    (r.turn .opened).run name = some (r.turn (.startName name.reverse)) := by
  obtain ⟨c, cs, rfl, hc, hcs⟩ := exists_cons_of_isWord hname
  have hfirst : (r.turn .opened).step c = some (r.turn (.startName [c])) := by
    have h1 : c ≠ '!' := ne_of_isAlpha hc (by decide)
    have h2 : c ≠ '?' := ne_of_isAlpha hc (by decide)
    have h3 : c ≠ '/' := ne_of_isAlpha hc (by decide)
    have h4 : ¬((r.open_.isEmpty && r.root.isSome) = true) := by
      rw [Bool.and_eq_true, List.isEmpty_iff]
      rintro ⟨ho, hr⟩
      rw [hroot ho] at hr
      exact absurd hr (by simp)
    simp only [h.step_turn, stepWith, turn_mode, h1, h2, h3, isNameStart_of_isAlpha hc, if_false,
      if_true, turn_open, turn_root, h4]
    rfl
  have hstep : ∀ soFar d, d.isAlpha = true →
      (r.turn (.startName soFar)).step d = some (r.turn (.startName (d :: soFar))) := by
    intro soFar d hd
    simp only [h.step_turn, stepWith, turn_mode, continuesName_of_isAlpha hd, if_true]
    rfl
  rw [run_cons, hfirst, Option.bind_some, run_collect hstep hcs]
  simp

/-- A quote in which the value of an attribute may stand. -/
def IsQuote (q : Char) : Prop := q = '"' ∨ q = '\''

/-- The name of an attribute, up to the opening quote of its value. -/
theorem Bare.run_attributeName (h : r.Bare) (s : Start) {name : List Char}
    (hname : isWord name = true) {q : Char} (hq : IsQuote q) :
    (r.turn (.inStart s)).run (name ++ ['=', q]) = some (r.turn (.value s name q [])) := by
  obtain ⟨c, cs, rfl, hc, hcs⟩ := exists_cons_of_isWord hname
  have hfirst : (r.turn (.inStart s)).step c = some (r.turn (.attributeName s [c])) := by
    simp only [h.step_turn, stepWith, turn_mode, isNameStart_of_isAlpha hc, if_true]
    rfl
  have hstep : ∀ soFar d, d.isAlpha = true →
      (r.turn (.attributeName s soFar)).step d = some (r.turn (.attributeName s (d :: soFar))) := by
    intro soFar d hd
    simp only [h.step_turn, stepWith, turn_mode, continuesName_of_isAlpha hd, if_true]
    rfl
  have heq : (r.turn (.attributeName s (cs.reverse ++ [c]))).step '='
      = some (r.turn (.beforeValue s (c :: cs))) := by
    have h1 : continuesName '=' = false := by decide
    have h2 : isWhite '=' = false := by decide
    simp only [h.step_turn, stepWith, turn_mode, h1, h2, if_true, if_false, Bool.false_eq_true,
      List.reverse_append, List.reverse_reverse, List.reverse_singleton, List.singleton_append]
    rfl
  have hquote : (r.turn (.beforeValue s (c :: cs))).step q
      = some (r.turn (.value s (c :: cs) q [])) := by
    have h2 : isWhite q = false := by rcases hq with rfl | rfl <;> decide
    have h3 : q = '"' ∨ q = '\'' := hq
    simp only [h.step_turn, stepWith, turn_mode, h2, if_false, Bool.false_eq_true, h3, if_true]
    rfl
  rw [List.cons_append, run_cons, hfirst, Option.bind_some, run_append, run_collect hstep hcs,
    Option.bind_some, run_cons, heq, Option.bind_some, run_cons, hquote, Option.bind_some, run_nil]

/-- The value of an attribute, up to its closing quote. -/
theorem Bare.run_value (h : r.Bare) (s : Start) (name : List Char) {value : String} {q : Char}
    (hvalue : ∀ c ∈ escape value, c ≠ q) :
    (r.turn (.value s name q [])).run (escape value ++ [q]) =
      some (r.turn (.behindValue { s with attributes := (name, escape value) :: s.attributes })) := by
  have hstep : ∀ soFar d, d ≠ q ∧ d ≠ '<' →
      (r.turn (.value s name q soFar)).step d = some (r.turn (.value s name q (d :: soFar))) := by
    rintro soFar d ⟨hq, hlt⟩
    simp only [h.step_turn, stepWith, turn_mode, hq, hlt, if_false]
    rfl
  have hend : (r.turn (.value s name q ((escape value).reverse ++ []))).step q
      = some (r.turn (.behindValue { s with attributes := (name, escape value) :: s.attributes })) := by
    simp only [h.step_turn, stepWith, turn_mode, if_true, List.append_nil, List.reverse_reverse]
    rfl
  rw [run_append, run_collect hstep fun c hc => ⟨hvalue c hc, ne_lt_of_mem_escape hc⟩,
    Option.bind_some, run_cons, hend, Option.bind_some, run_nil]

/-! ### Start tags -/

/-- The reader stands behind the name of a start tag or behind one of its attributes, and what is read
so far is a start. -/
def IsBehind (r : Reader) (s : Start) : Prop :=
  r.mode = .behindValue s ∨ (r.mode = .startName s.name.reverse ∧ s.attributes = [])

/-- There, white space, a slash and a bracket mean what they mean in any start tag. -/
theorem Bare.step_behind (h : r.Bare) {s : Start} (hs : r.IsBehind s) {c : Char}
    (hc : continuesName c = false) : r.step c = r.behindName? 0 s c := by
  rw [h.step_eq]
  rcases hs with hm | ⟨hm, ha⟩
  · simp only [stepWith, hm]
  · obtain ⟨name, attributes⟩ := s
    obtain rfl : attributes = [] := ha
    simp [stepWith, hm, hc]

/-- One more attribute. -/
theorem Bare.run_attribute (h : r.Bare) {s : Start} (hs : r.IsBehind s) {q : Char} (hq : IsQuote q)
    {name value : String} (hname : isWord name.toList = true) (hvalue : ∀ c ∈ escape value, c ≠ q) :
    r.run (' ' :: name.toList ++ '=' :: q :: escape value ++ [q]) =
      some (r.turn (.behindValue
        { s with attributes := (name.toList, escape value) :: s.attributes })) := by
  have hspace : r.step ' ' = some (r.turn (.inStart s)) := by
    rw [h.step_behind hs (by decide)]
    rfl
  have hsplit : ' ' :: name.toList ++ '=' :: q :: escape value ++ [q]
      = ' ' :: ((name.toList ++ ['=', q]) ++ (escape value ++ [q])) := by simp
  rw [hsplit, run_cons, hspace, Option.bind_some, run_append, h.run_attributeName s hname hq,
    Option.bind_some, h.run_value s _ hvalue]

/-- Attributes between quotes of either sort. -/
def quotedAttributes (q : Char) (attributes : List (String × String)) : List Char :=
  attributes.flatMap fun a => ' ' :: a.1.toList ++ '=' :: q :: escape a.2 ++ [q]

/-- Attributes whose values do not hold the quote that they stand between. -/
def FitQuotes (q : Char) (attributes : List (String × String)) : Prop :=
  IsQuote q ∧ ∀ a ∈ attributes, ∀ c ∈ escape a.2, c ≠ q

/-- Escaped values fit between the quotes that are written. -/
theorem fitQuotes_escape (attributes : List (String × String)) : FitQuotes '"' attributes :=
  ⟨.inl rfl, fun _ _ _ hc => ne_quote_of_mem_escape hc⟩

/-- All attributes of a start tag. -/
theorem Bare.run_attributes (h : r.Bare) {s : Start} (hs : r.IsBehind s) {q : Char}
    {attributes : List (String × String)} (ha : ∀ a ∈ attributes, isWord a.1.toList = true)
    (hq : FitQuotes q attributes) :
    ∃ m, r.run (quotedAttributes q attributes) = some (r.turn m) ∧
      (r.turn m).IsBehind
        { s with attributes := (writtenAttributes attributes).reverse ++ s.attributes } := by
  induction attributes generalizing r s with
  | nil => exact ⟨r.mode, rfl, hs⟩
  | cons a as ih =>
    let s' : Start := { s with attributes := (a.1.toList, escape a.2) :: s.attributes }
    obtain ⟨m, hrun, hm⟩ := ih (h.turn (.behindValue s')) (s := s') (.inl rfl)
      (fun b hb => ha b (by simp [hb])) ⟨hq.1, fun b hb => hq.2 b (by simp [hb])⟩
    refine ⟨m, ?_, by simpa [writtenAttributes, s'] using hm⟩
    rw [quotedAttributes, List.flatMap_cons, run_append,
      h.run_attribute hs hq.1 (ha a (by simp)) (hq.2 a (by simp)), Option.bind_some]
    exact hrun

/-- Values without entities and rules are resolved on their own and use up no room. -/
theorem resolveValues?_eq (r : Reader) (depth : Nat) (attributes : List (String × String)) :
    r.resolveValues? depth [] (writtenAttributes attributes)
      = some (rawAttributes attributes, r) := by
  induction attributes with
  | nil => rfl
  | cons a as ih =>
    have hroom : r.withRoom r.room = r := rfl
    have hrest : r.resolveValues? depth [] (as.map fun a => (a.1.toList, escape a.2))
        = some (as.map fun a => (a.1.toList, flatten a.2), r) := ih
    simp [writtenAttributes, rawAttributes, resolveValues?, Value.attributeValue?_escape, hroom,
      hrest]

/-- The start tag of an element. -/
def startOf (tag : String) (attributes : List (String × String)) : Start :=
  { name := tag.toList, attributes := (writtenAttributes attributes).reverse }

/-- The frame of an element that has just been opened. -/
def newFrame (tag : String) (attributes : List (String × String)) : Frame :=
  { name := tag.toList, tag, attributes := flattenAll attributes, scope := bareScope }

/-- An element whose name and attributes are legible is opened. -/
theorem Bare.openElement?_eq (h : r.Bare) {tag : String} (htag : isWord tag.toList = true)
    {attributes : List (String × String)} (ha : LegibleAttributes attributes) :
    r.openElement? 0 (startOf tag attributes) =
      some { r.turn (.content 0) with open_ := newFrame tag attributes :: r.open_ } := by
  -- words are names, they are different, and there are no rules for attributes that are left out
  have hnames : (tag.toList :: (writtenAttributes attributes).reverse.map (·.1)).all
      isWrittenName = true := by
    rw [List.all_eq_true]
    intro name hname
    rcases List.mem_cons.1 hname with rfl | hname
    · exact isWrittenName_of_isWord htag
    · simp only [List.map_reverse, List.mem_reverse, writtenAttributes, List.map_map,
        List.mem_map] at hname
      obtain ⟨a, hmem, rfl⟩ := hname
      exact isWrittenName_of_isWord (ha.word a hmem)
  have hrev : distinct ((writtenAttributes attributes).reverse.map (·.1)) = true := by
    refine distinct_of_nodup ?_
    rw [List.map_reverse, List.nodup_reverse]
    exact ha.nodup_written
  have hrules : r.definitions.rulesFor tag = [] := by
    simp [Definitions.rulesFor, h.rules]
  have hname : elementName? bareScope tag.toList = some tag := by
    rw [elementName?_of_isWord htag rfl, String.ofList_toList]
  simp only [openElement?, startOf, hnames, hrev, hrules, List.reverse_reverse, resolveValues?_eq,
    givenAttributes, List.filterMap_nil, List.append_nil, h.scope,
    declare?_of_forall _ ha.declaredPrefix?_eq_none, hname, ha.resolve?_eq, ha.distinct_flattenAll,
    String.ofList_toList, Bool.not_true, Bool.or_false, Bool.false_eq_true, if_false,
    Option.bind_eq_bind, Option.bind_some, Option.pure_def]
  rfl

/-! ### Character data -/

/-- Character data is added to the innermost element, one character at a time. -/
theorem addText_addText (r : Reader) (cs ds : List Char) :
    (r.addText cs).addText ds = r.addText (cs ++ ds) := by
  unfold addText
  cases ho : r.open_ with
  | nil => simp [ho]
  | cons f fs =>
    by_cases hf : f.children.isEmpty = true <;> simp [hf, ho]

theorem addText_nil (r : Reader) : r.addText [] = r := by
  unfold addText
  split
  · rfl
  · next f fs ho => simp [← ho]

theorem turn_addText (r : Reader) (m : Mode) (cs : List Char) :
    (r.turn m).addText cs = (r.addText cs).turn m := by
  unfold addText turn
  cases ho : r.open_ with
  | nil => simp [ho]
  | cons f fs => by_cases hf : f.children.isEmpty = true <;> simp [hf, ho]

theorem scope_addText (r : Reader) (cs : List Char) : (r.addText cs).scope = r.scope := by
  unfold addText scope
  cases ho : r.open_ with
  | nil => simp [ho]
  | cons f fs => by_cases hf : f.children.isEmpty = true <;> simp [hf, ho]

theorem definitions_addText (r : Reader) (cs : List Char) :
    (r.addText cs).definitions = r.definitions := by
  unfold addText
  cases ho : r.open_ with
  | nil => rfl
  | cons f fs => by_cases hf : f.children.isEmpty = true <;> simp [hf]

theorem inEntity_addText (r : Reader) (cs : List Char) : (r.addText cs).inEntity = r.inEntity := by
  unfold addText
  cases ho : r.open_ with
  | nil => rfl
  | cons f fs => by_cases hf : f.children.isEmpty = true <;> simp [hf]

theorem Bare.addText (h : r.Bare) (cs : List Char) : (r.addText cs).Bare where
  entities := by rw [definitions_addText, h.entities]
  rules := by rw [definitions_addText, h.rules]
  scope := by rw [scope_addText, h.scope]
  outside := by rw [inEntity_addText, h.outside]

/-- A reference to one of the five entities of every document adds its character. -/
theorem Bare.run_reference (h : r.Bare) (b : Nat) {name : List Char} {c : Char}
    (hname : isWord name = true) (hk : knownEntity? (String.ofList name) = some c) :
    (r.turn (.content b)).run ('&' :: (name ++ [';'])) =
      some ((r.addText [c]).turn (.content 0)) := by
  have hof := Referent.ofName?_of_isWord hname
  obtain ⟨d, ds, rfl, hd, hds⟩ := exists_cons_of_isWord hname
  -- the ampersand, the first letter, the other letters, and the semicolon at which the reference is looked up
  have hamp : (r.turn (.content b)).step '&' = some (r.turn (.reference [])) := by
    simp only [h.step_turn, stepWith, turn_mode]
    rfl
  have hfirst : (r.turn (.reference [])).step d = some (r.turn (.reference [d])) := by
    have hsemi : d ≠ ';' := ne_of_isAlpha hd (by decide)
    simp only [h.step_turn, stepWith, turn_mode, hsemi, if_false, continuesReference,
      List.isEmpty_nil, if_true, isNameStart_of_isAlpha hd, Bool.or_true]
    rfl
  have hstep : ∀ soFar e, e.isAlpha = true →
      (r.turn (.reference (soFar ++ [d]))).step e
        = some (r.turn (.reference (e :: soFar ++ [d]))) := by
    intro soFar e he
    have hsemi : e ≠ ';' := ne_of_isAlpha he (by decide)
    simp only [h.step_turn, stepWith, turn_mode, hsemi, if_false, continuesReference,
      isNameChar_of_isAlpha he, List.append_eq_nil_iff, List.isEmpty_iff, List.cons_ne_nil,
      and_false, if_true, List.cons_append]
    rfl
  have hend : (r.turn (.reference (ds.reverse ++ [] ++ [d]))).step ';'
      = some ((r.addText [c]).turn (.content 0)) := by
    simp only [h.step_turn, stepWith, turn_mode, if_true, List.append_nil, List.reverse_append,
      List.reverse_reverse, List.reverse_singleton, List.singleton_append, hof, Option.bind_some,
      refer?, hk, turn_addText]
    rfl
  have hletters := run_collect hstep hds []
  rw [run_cons, hamp, Option.bind_some, List.cons_append, run_cons, hfirst, Option.bind_some,
    run_append]
  rw [List.nil_append] at hletters
  rw [hletters, Option.bind_some, run_cons, hend, Option.bind_some, run_nil]

/-- A character of a text is added, however it is written. -/
theorem Bare.run_escapeChar (h : r.Bare) (b : Nat) (c : Char) :
    ∃ b', (r.turn (.content b)).run (escapeChar c) =
      some ((r.addText [c]).turn (.content b')) := by
  rcases escapeChar_cases c with ⟨name, he, hn, hk, -⟩ | ⟨he, hamp, hlt, hgt, -⟩
  · exact ⟨0, by rw [he, h.run_reference b hn hk]⟩
  · rw [he, run_cons, h.step_turn]
    simp only [stepWith, turn_mode, hamp, hlt, hgt, if_false, false_and, turn_addText]
    by_cases hb : c = ']'
    · exact ⟨min 2 (b + 1), by rw [if_pos hb]; rfl⟩
    · exact ⟨0, by rw [if_neg hb]; rfl⟩

/-- A text is added as it was before it was escaped. -/
theorem Bare.run_escape (h : r.Bare) (b : Nat) (cs : List Char) :
    ∃ b', (r.turn (.content b)).run (cs.flatMap escapeChar) =
      some ((r.addText cs).turn (.content b')) := by
  induction cs generalizing r b with
  | nil => exact ⟨b, by rw [addText_nil]; rfl⟩
  | cons c cs ih =>
    obtain ⟨b₁, h₁⟩ := h.run_escapeChar b c
    obtain ⟨b₂, h₂⟩ := ih (h.addText [c]) b₁
    refine ⟨b₂, ?_⟩
    rw [List.flatMap_cons, run_append, h₁, Option.bind_some, h₂, addText_addText]
    rfl

/-! ### End tags -/

/-- The reader with an element behind the children of the innermost open one, or as the root. -/
def place (r : Reader) (e : Element) : Reader :=
  match r.open_ with
  | [] => { r with mode := .outside, root := some e }
  | f :: fs =>
      { r with mode := .content 0, open_ := { f with children := e :: f.children } :: fs }

/-- The innermost element is closed under its own name. -/
theorem closeElement?_eq {f : Frame} (hr : r.inEntity = false) :
    ({ r with open_ := f :: r.open_ } : Reader).closeElement? f.name
      = some (r.place (Frame.element f)) := by
  unfold closeElement? place
  cases ho : r.open_ with
  | nil => simp [hr]
  | cons g gs => simp

/-- An end tag. -/
theorem Bare.run_endTag {f : Frame} (h : r.Bare) (hscope : f.scope = bareScope) (b : Nat)
    (hname : isWord f.name = true) :
    (({ r with open_ := f :: r.open_ } : Reader).turn (.content b)).run
        ('<' :: '/' :: f.name ++ ['>']) = some (r.place (Frame.element f)) := by
  have hin : ({ r with open_ := f :: r.open_ } : Reader).Bare :=
    ⟨h.entities, h.rules, hscope, h.outside⟩
  have hclose := fun m => closeElement?_eq (r := r.turn m) (f := f) h.outside
  generalize hq : ({ r with open_ := f :: r.open_ } : Reader) = q at hin
  -- bracket and slash, the first letter, the other letters, and the bracket that closes the tag
  obtain ⟨c, cs, hcons, hc, hcs⟩ := exists_cons_of_isWord hname
  have hlt : (q.turn (.content b)).step '<' = some (q.turn .opened) := by
    simp only [hin.step_turn, stepWith, turn_mode, if_true]
    rfl
  have hslash : (q.turn .opened).step '/' = some (q.turn (.endName [])) := by
    have ho : q.open_.isEmpty = false := by rw [← hq]; rfl
    simp only [hin.step_turn, stepWith, turn_mode, turn_open, ho, if_true, if_false,
      Bool.false_eq_true]
    rfl
  have hfirst : (q.turn (.endName [])).step c = some (q.turn (.endName [c])) := by
    simp only [hin.step_turn, stepWith, turn_mode, List.isEmpty_nil, if_true,
      isNameStart_of_isAlpha hc]
    rfl
  have hstep : ∀ soFar d, d.isAlpha = true →
      (q.turn (.endName (soFar ++ [c]))).step d = some (q.turn (.endName (d :: soFar ++ [c]))) := by
    intro soFar d hd
    have hne : (soFar ++ [c]).isEmpty = false := by simp
    simp only [hin.step_turn, stepWith, turn_mode, hne, if_false, Bool.false_eq_true,
      continuesName_of_isAlpha hd, if_true]
    rfl
  have hend : (q.turn (.endName (cs.reverse ++ [] ++ [c]))).step '>'
      = some (r.place (Frame.element f)) := by
    have hne : (cs.reverse ++ [] ++ [c]).isEmpty = false := by simp
    have hgt : continuesName '>' = false := by decide
    have hwhite : isWhite '>' = false := by decide
    have hrev : (cs.reverse ++ [] ++ [c]).reverse = f.name := by simp [hcons]
    simp only [hin.step_turn, stepWith, turn_mode, hne, hgt, hwhite, if_false, if_true,
      Bool.false_eq_true, hrev]
    rw [← hq]
    exact hclose _
  have hletters := run_collect hstep hcs []
  rw [List.nil_append] at hletters
  rw [List.cons_append, List.cons_append, run_cons, hlt, Option.bind_some, run_cons, hslash,
    Option.bind_some, hcons, List.cons_append, run_cons, hfirst, Option.bind_some, run_append,
    hletters, Option.bind_some, run_cons, hend, Option.bind_some, run_nil]

end Reader

end VirtualTopology.Document

namespace VirtualTopology.Element

open Document

/-! ### Legible elements -/

/-- A text that comes back as it is: no character of it is refused, and no line end is changed. -/
def IsSettled (s : String) : Prop := ∀ c ∈ s.toList, isAllowed c = true ∧ c ≠ '\r'

/-- An element that comes back when it is read: names are words, attributes are legible, and texts are
settled. -/
inductive Legible : Element → Prop where
  | mk {tag : String} {attributes : List (String × String)} {lead : String} {children : List Element}
      (word : isWord tag.toList = true) (legible : LegibleAttributes attributes)
      (values : ∀ a ∈ attributes, IsSettled a.2) (text : IsSettled lead)
      (inside : ∀ c ∈ children, Legible c) : Legible { tag, attributes, lead, children }

mutual

/-- What is read of an element that was written at an indentation. -/
def readBack (indent : Nat) : Element → Element
  | { tag, attributes, lead, children } =>
      { tag, attributes := flattenAll attributes
        lead := if children.isEmpty then lead else String.ofList (newLine (indent + 2))
        children := readBackAll (indent + 2) children }

/-- What is read of several elements. -/
def readBackAll (indent : Nat) : List Element → List Element
  | [] => []
  | e :: es => e.readBack indent :: readBackAll indent es

end

end VirtualTopology.Element

namespace VirtualTopology.Document

open Element

namespace Reader

variable {r : Reader}

/-- A reader where an element may begin: outside, or in character data. -/
def IsIdle (r : Reader) : Prop :=
  (r.mode = .outside ∧ r.open_ = [] ∧ r.root = none) ∨
    ((∃ b, r.mode = .content b) ∧ r.open_ ≠ [])

theorem Bare.step_open (h : r.Bare) (hi : r.IsIdle) : r.step '<' = some (r.turn .opened) := by
  have hw : isWhite '<' = false := by decide
  rw [h.step_eq]
  rcases hi with ⟨hm, -⟩ | ⟨⟨b, hm⟩, -⟩
  · simp only [stepWith, hm, hw, if_true, if_false, Bool.false_eq_true]
    rfl
  · simp only [stepWith, hm, if_true]
    rfl

/-- The reader goes through the written form of an element, in front of any further text. -/
def ReadsAs (e : Element) : Prop :=
  ∀ (r : Reader) (indent : Nat), r.Bare → r.IsIdle →
    r.run (e.write indent) = some (r.place (e.readBack indent))

/-- The start of an element, up to the end of its last attribute. -/
theorem Bare.run_start (h : r.Bare) (hi : r.IsIdle) {tag : String} (htag : isWord tag.toList = true)
    {q : Char} {attributes : List (String × String)} (ha : LegibleAttributes attributes)
    (hq : FitQuotes q attributes) :
    ∃ m, r.run ('<' :: tag.toList ++ quotedAttributes q attributes) = some (r.turn m) ∧
      (r.turn m).IsBehind (startOf tag attributes) := by
  have hroot : r.open_ = [] → r.root = none := by
    rcases hi with ⟨-, -, hr⟩ | ⟨-, ho⟩
    · exact fun _ => hr
    · exact fun he => absurd he ho
  obtain ⟨m, hrun, hm⟩ := (h.turn (.startName tag.toList.reverse)).run_attributes
    (s := { name := tag.toList }) (.inr ⟨rfl, rfl⟩) ha.word hq
  refine ⟨m, ?_, by simpa [startOf] using hm⟩
  rw [List.cons_append, run_cons, h.step_open hi, Option.bind_some, run_append,
    h.run_startName htag hroot, Option.bind_some, hrun, turn_turn]

/-- A start tag opens an element. -/
theorem Bare.run_startTag (h : r.Bare) (hi : r.IsIdle) {tag : String}
    (htag : isWord tag.toList = true) {q : Char} {attributes : List (String × String)}
    (ha : LegibleAttributes attributes) (hq : FitQuotes q attributes) :
    r.run ('<' :: tag.toList ++ quotedAttributes q attributes ++ ['>']) =
      some (({ r with open_ := newFrame tag attributes :: r.open_ } : Reader).turn
        (.content 0)) := by
  obtain ⟨m, hstart, hm⟩ := h.run_start hi htag ha hq
  have hgt : (r.turn m).step '>' =
      some (({ r with open_ := newFrame tag attributes :: r.open_ } : Reader).turn (.content 0)) := by
    rw [(h.turn m).step_behind hm (by decide)]
    exact (h.turn m).openElement?_eq htag ha
  rw [run_append, hstart, Option.bind_some, run_cons, hgt, Option.bind_some, run_nil]

/-- A start tag that ends with a slash is a whole element. -/
theorem Bare.run_emptyTag (h : r.Bare) (hi : r.IsIdle) {tag : String}
    (htag : isWord tag.toList = true) {q : Char} {attributes : List (String × String)}
    (ha : LegibleAttributes attributes) (hq : FitQuotes q attributes) :
    r.run ('<' :: tag.toList ++ quotedAttributes q attributes ++ ['/', '>']) =
      some (r.place { tag, attributes := flattenAll attributes }) := by
  obtain ⟨m, hstart, hm⟩ := h.run_start hi htag ha hq
  have hslash : (r.turn m).step '/' = some (r.turn (.selfClosing (startOf tag attributes))) := by
    rw [(h.turn m).step_behind hm (by decide)]
    rfl
  have hclose : (r.turn (.selfClosing (startOf tag attributes))).step '>'
      = some (r.place (Frame.element (newFrame tag attributes))) := by
    have hopen := (h.turn (.selfClosing (startOf tag attributes))).openElement?_eq htag ha
    simp only [h.step_turn, stepWith, turn_mode, if_true, hopen, Option.bind_some]
    exact closeElement?_eq (r := r.turn (.content 0)) h.outside
  rw [run_append, hstart, Option.bind_some, run_cons, hslash, Option.bind_some, run_cons, hclose,
    Option.bind_some, run_nil]
  rfl

/-- The frame with the elements that stand in it on lines of their own. -/
def Frame.adopt (indent : Nat) (f : Frame) : List Element → Frame
  | [] => f
  | e :: es =>
      Frame.adopt indent
        { f with
          lead := if f.children.isEmpty then (newLine indent).reverse ++ f.lead else f.lead
          children := e.readBack indent :: f.children } es

/-- A frame that has a child takes further ones without a change of its character data. -/
theorem Frame.adopt_eq (indent : Nat) (f : Frame) (hf : f.children ≠ []) (es : List Element) :
    Frame.adopt indent f es =
      { f with children := (readBackAll indent es).reverse ++ f.children } := by
  induction es generalizing f with
  | nil => simp [adopt, readBackAll]
  | cons e es ih =>
    rw [adopt, ih _ (by simp)]
    simp [readBackAll, hf]

/-- A new frame with all its children. -/
theorem Frame.adopt_newFrame (indent : Nat) (tag : String) (attributes : List (String × String))
    (e : Element) (es : List Element) :
    Frame.adopt indent (newFrame tag attributes) (e :: es) =
      { newFrame tag attributes with
        lead := (newLine indent).reverse, children := (readBackAll indent (e :: es)).reverse } := by
  rw [adopt, Frame.adopt_eq _ _ (by simp)]
  simp [newFrame, readBackAll]

/-- Line breaks and spaces are character data like any other. -/
theorem Bare.run_newLine (h : r.Bare) {b : Nat} (hb : r.mode = .content b) (indent : Nat) :
    ∃ b', r.run (newLine indent) = some ((r.addText (newLine indent)).turn (.content b')) := by
  have hplain : (newLine indent).flatMap escapeChar = newLine indent := by
    have hspaces : (List.replicate indent ' ').flatMap escapeChar = List.replicate indent ' ' := by
      induction indent with
      | zero => rfl
      | succ n ih => simpa [List.replicate_succ, escapeChar] using ih
    simpa [newLine, escapeChar] using hspaces
  obtain ⟨b', hrun⟩ := h.run_escape b (newLine indent)
  rw [hplain, turn_self hb] at hrun
  exact ⟨b', hrun⟩

/-- The children of an element, each on a line of its own. -/
theorem Bare.run_writeAll {f : Frame} {fs : List Frame} (h : r.Bare) (ho : r.open_ = f :: fs)
    {b : Nat} (hb : r.mode = .content b) (indent : Nat) {es : List Element}
    (hes : ∀ e ∈ es, ReadsAs e) :
    ∃ b', r.run (writeAll indent es) =
      some { r with mode := .content b', open_ := Frame.adopt indent f es :: fs } := by
  induction es generalizing r f b with
  | nil =>
    refine ⟨b, ?_⟩
    rw [writeAll, run_nil, Frame.adopt, ← hb, ← ho]
  | cons e es ih =>
    -- a new line, which is lead only in front of the first child, and then the child itself
    obtain ⟨b₁, hline⟩ := h.run_newLine hb indent
    let g : Frame :=
      { f with lead := if f.children.isEmpty then (newLine indent).reverse ++ f.lead else f.lead }
    have hadd : r.addText (newLine indent) = { r with open_ := g :: fs } := by
      unfold Reader.addText
      rw [ho]
      by_cases hf : f.children.isEmpty = true
      · simp [g, hf]
      · simp [g, hf, ← ho]
    have hbare := (h.addText (newLine indent)).turn (.content b₁)
    rw [hadd] at hline hbare
    have hread := hes e (by simp) _ indent hbare (.inr ⟨⟨b₁, rfl⟩, by simp⟩)
    have hplace : (({ r with open_ := g :: fs } : Reader).turn (.content b₁)).place
        (e.readBack indent) =
          ({ r with open_ := { g with children := e.readBack indent :: f.children } :: fs } :
            Reader).turn (.content 0) := rfl
    have hscope : ({ r with open_ := { g with children := e.readBack indent :: f.children } :: fs } :
        Reader).scope = r.scope := by
      unfold Reader.scope
      rw [ho]
    have hnext : ({ r with open_ := { g with children := e.readBack indent :: f.children } :: fs } :
        Reader).Bare := ⟨h.entities, h.rules, hscope.trans h.scope, h.outside⟩
    obtain ⟨b₂, hrest⟩ := ih (hnext.turn (.content 0)) rfl rfl fun e he => hes e (by simp [he])
    refine ⟨b₂, ?_⟩
    rw [writeAll, run_append, run_append, hline, Option.bind_some, hread, Option.bind_some, hplace,
      hrest]
    rfl

/-- The text of an element and its end tag. -/
theorem Bare.run_lead (h : r.Bare) {tag : String} (htag : isWord tag.toList = true)
    (attributes : List (String × String)) (lead : String) :
    (({ r with open_ := newFrame tag attributes :: r.open_ } : Reader).turn (.content 0)).run
        (escape lead ++ ('<' :: '/' :: tag.toList ++ ['>'])) =
      some (r.place { tag, attributes := flattenAll attributes, lead }) := by
  have hin : ({ r with open_ := newFrame tag attributes :: r.open_ } : Reader).Bare :=
    ⟨h.entities, h.rules, rfl, h.outside⟩
  obtain ⟨b, hrun⟩ := hin.run_escape 0 lead.toList
  have hend := h.run_endTag (f := { newFrame tag attributes with lead := lead.toList.reverse ++ [] })
    rfl b htag
  rw [run_append, escape, hrun, Option.bind_some]
  refine hend.trans ?_
  simp [Frame.element, newFrame]

/-- **An element that is read where one may begin** becomes a child of the innermost open element, or
the root. -/
theorem readsAs_of_legible {e : Element} (he : e.Legible) : ReadsAs e := by
  induction he with
  | @mk tag attributes lead children htag ha _ _ _ ih =>
    intro r indent h hi
    have hquotes := fitQuotes_escape attributes
    have hwritten : writeAttributes attributes = quotedAttributes '"' attributes := rfl
    have hopen := h.run_startTag hi htag ha hquotes
    cases children with
    | nil =>
      by_cases hlead : lead.isEmpty = true
      · have hempty : lead = "" := by simpa using hlead
        simp only [write, List.isEmpty_nil, if_true, hlead]
        rw [hwritten, h.run_emptyTag hi htag ha hquotes, hempty]
        rfl
      · have hlead' : lead.isEmpty = false := by simpa using hlead
        simp only [write, List.isEmpty_nil, if_true, hlead', if_false, Bool.false_eq_true]
        rw [hwritten, List.append_cons, List.append_assoc, run_append, hopen, Option.bind_some,
          h.run_lead htag]
        rfl
    | cons c cs =>
      have hin : ({ r with open_ := newFrame tag attributes :: r.open_ } : Reader).Bare :=
        ⟨h.entities, h.rules, rfl, h.outside⟩
      obtain ⟨b₁, hall⟩ := (hin.turn (.content 0)).run_writeAll rfl rfl (indent + 2) ih
      rw [Frame.adopt_newFrame] at hall
      generalize hf : ({ newFrame tag attributes with
        lead := (newLine (indent + 2)).reverse
        children := (readBackAll (indent + 2) (c :: cs)).reverse } : Frame) = f at hall
      have hinner : ({ r with open_ := f :: r.open_ } : Reader).Bare :=
        ⟨h.entities, h.rules, by rw [← hf]; rfl, h.outside⟩
      -- behind the children the line break is dropped
      have hdrop : ({ r with open_ := f :: r.open_ } : Reader).addText (newLine indent)
          = { r with open_ := f :: r.open_ } := by
        simp [Reader.addText, ← hf, readBackAll]
      obtain ⟨b₂, hline⟩ := (hinner.turn (.content b₁)).run_newLine rfl indent
      rw [turn_addText, hdrop, turn_turn] at hline
      have hend := h.run_endTag (f := f) (by rw [← hf]; rfl) b₂ (by rw [← hf]; exact htag)
      have hname : f.name = tag.toList := by rw [← hf]; rfl
      have helement : Frame.element f =
          ({ tag, attributes, lead, children := c :: cs } : Element).readBack indent := by
        simp [← hf, Frame.element, newFrame, readBack]
      have hall' : (({ r with open_ := newFrame tag attributes :: r.open_ } : Reader).turn
          (.content 0)).run (writeAll (indent + 2) (c :: cs))
            = some (({ r with open_ := f :: r.open_ } : Reader).turn (.content b₁)) := hall
      rw [hname, helement] at hend
      simp only [write, List.isEmpty_cons, if_false, Bool.false_eq_true]
      rw [hwritten, List.append_cons, List.append_assoc, List.append_assoc, run_append, hopen,
        Option.bind_some, run_append, hall', Option.bind_some, run_append, hline, Option.bind_some,
        hend]

end Reader

end VirtualTopology.Document
