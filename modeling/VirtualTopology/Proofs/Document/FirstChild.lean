import Mathlib.Tactic.SplitIfs
import VirtualTopology.Proofs.Document.ReadBack

/-!
# Readers do not look back at the first child

What a reader makes of the rest of a document does not depend on what it has read as the first child of
the root element: with another first child it goes through the same rest in the same way
(`Reader.run_refit`). The number of octets that may be put in place of references does not matter either,
because a document without declarations has no references that take up room.
-/

namespace VirtualTopology.Document

/-! ### Values without entities -/

namespace Value

/-- The value with other room. -/
def refit (room : Nat) (v : Value) : Value := { v with room }

theorem attributeReference_refit (within : Value → List Char → Option Value) (room : Nat) (v : Value)
    (t : Referent) :
    attributeReference {} within (v.refit room) t =
      (attributeReference {} within v t).map (refit room) := by
  cases t with
  | character c => rfl
  | entity name =>
    simp only [attributeReference, List.lookup_nil]
    cases knownEntity? name with
    | some c => rfl
    | none => rfl

/-- Without entities no room is used up, and none is needed. -/
theorem attributeStep_refit (depth room : Nat) (v : Value) (c : Char) :
    attributeStep {} depth (v.refit room) c = (attributeStep {} depth v c).map (refit room) := by
  have hstep : ∃ within, attributeStep {} depth =
      stepWith attributeChar? (attributeReference {} within) := by
    cases depth with
    | zero => exact ⟨_, rfl⟩
    | succ depth => exact ⟨_, rfl⟩
  obtain ⟨within, hstep⟩ := hstep
  have hreference : (v.refit room).reference = v.reference := rfl
  rw [hstep, stepWith, stepWith, hreference]
  cases v.reference with
  | none =>
    by_cases hamp : c = '&'
    · simp only [hamp, if_true]
      rfl
    · simp only [hamp, if_false, Option.map_map]
      rfl
  | some name =>
    by_cases hsemi : c = ';'
    · simp only [hsemi, if_true, Option.map_bind]
      congr 1
      funext t
      exact attributeReference_refit within room { v with reference := none } t
    · simp only [hsemi, if_false]
      split <;> rfl

theorem attributeValue?_refit (depth : Nat) (isText : Bool) (room room' : Nat)
    (written : List Char) :
    attributeValue? {} depth isText room' written =
      (attributeValue? {} depth isText room written).map fun p => (p.1, room') := by
  have hrun : ∀ (cs : List Char) (v : Value), cs.foldlM (attributeStep {} depth) (v.refit room') =
      (cs.foldlM (attributeStep {} depth) v).map (refit room') := by
    intro cs
    induction cs with
    | nil => exact fun v => rfl
    | cons c cs ih =>
      intro v
      rw [List.foldlM_cons, List.foldlM_cons, attributeStep_refit]
      cases attributeStep {} depth v c with
      | none => rfl
      | some v => exact ih v
  have hstart : ({ room := room' } : Value) = ({ room } : Value).refit room' := rfl
  simp only [attributeValue?, runWith, hstart, hrun, Option.bind_eq_bind, Option.pure_def]
  cases written.foldlM (attributeStep {} depth) { room } with
  | none => rfl
  | some v =>
    have hreference : (v.refit room').reference = v.reference := rfl
    simp only [Option.map_some, Option.bind_some, hreference]
    cases v.reference <;> rfl

end Value

namespace Reader

/-- An element with another first child. -/
def refitElement (c : Element) (e : Element) : Element := { e with children := c :: e.children.tail }

/-- Open elements of which the outermost has another first child. -/
def refitFrames (c : Element) : List Frame → List Frame
  | [] => []
  | [f] => [{ f with children := f.children.dropLast ++ [c] }]
  | f :: g :: gs => f :: refitFrames c (g :: gs)

/-- A reader of which the root element has another first child. -/
def refit (c : Element) (room : Nat) (r : Reader) : Reader :=
  { r with
    open_ := refitFrames c r.open_
    root := r.root.map (refitElement c)
    definitions := { r.definitions with room } }

/-- Whether the outermost of the open elements has a child. -/
def IsRooted : List Frame → Prop
  | [] => True
  | [f] => f.children ≠ []
  | _ :: g :: gs => IsRooted (g :: gs)

/-- A reader behind the first child of the root element, in a document without declarations. Behind
the root only asides may follow. -/
structure PastFirst (r : Reader) : Prop where
  entities : r.definitions.entities = {}
  rules : r.definitions.rules = []
  outside : r.inEntity = false
  undeclared : ∀ t, r.mode ≠ .documentType t
  rooted : IsRooted r.open_
  begun : r.open_ = [] → r.root.isSome = true
  behind : r.open_ = [] → r.mode = .outside ∨ r.mode = .opened ∨ (∃ cs, r.mode = .declared cs) ∨
    ∃ a, r.mode = .aside a

variable {r : Reader} (c : Element) (room : Nat)

@[simp] theorem mode_refit : (r.refit c room).mode = r.mode := rfl

theorem isEmpty_refitFrames (fs : List Frame) : (refitFrames c fs).isEmpty = fs.isEmpty := by
  fun_cases refitFrames c fs <;> rfl

@[simp] theorem isEmpty_open_refit : (r.refit c room).open_.isEmpty = r.open_.isEmpty :=
  isEmpty_refitFrames c r.open_

@[simp] theorem isSome_root_refit : (r.refit c room).root.isSome = r.root.isSome := by
  simp [refit]

theorem refitFrames_cons (f : Frame) {fs : List Frame} (h : fs ≠ []) :
    refitFrames c (f :: fs) = f :: refitFrames c fs := by
  cases fs with
  | nil => exact absurd rfl h
  | cons g gs => rfl

theorem isRooted_cons (f : Frame) {fs : List Frame} (h : fs ≠ []) :
    IsRooted (f :: fs) ↔ IsRooted fs := by
  cases fs with
  | nil => exact absurd rfl h
  | cons g gs => rfl

theorem addText_refit (h : IsRooted r.open_) (cs : List Char) :
    (r.refit c room).addText cs = (r.addText cs).refit c room := by
  unfold addText
  cases ho : r.open_ with
  | nil => simp [refit, ho, refitFrames]
  | cons f fs =>
    cases fs with
    | nil =>
      have hf : f.children ≠ [] := by rw [ho] at h; exact h
      simp [refit, ho, refitFrames, hf]
    | cons g gs =>
      by_cases hf : f.children.isEmpty = true <;> simp [refit, ho, refitFrames, hf]

theorem isRooted_addText (h : IsRooted r.open_) (cs : List Char) :
    IsRooted (r.addText cs).open_ := by
  unfold addText
  cases ho : r.open_ with
  | nil => simp [ho, IsRooted]
  | cons f fs =>
    rw [ho] at h
    by_cases hf : f.children.isEmpty = true
    · cases fs with
      | nil => exact absurd hf (by simpa [IsRooted] using h)
      | cons g gs => simpa [hf, IsRooted] using h
    · simpa [hf, ho] using h

theorem scope_refit : (r.refit c room).scope = r.scope := by
  unfold scope
  cases ho : r.open_ with
  | nil => simp [refit, ho, refitFrames]
  | cons f fs => cases fs <;> simp [refit, ho, refitFrames]

theorem resolveValues?_refit (h : r.definitions.entities = {}) (depth : Nat)
    (rules : List AttributeRule) (written : List (List Char × List Char)) :
    (r.refit c room).resolveValues? depth rules written =
      (r.resolveValues? depth rules written).map fun p => (p.1, p.2.refit c room) := by
  induction written generalizing r with
  | nil => rfl
  | cons a as ih =>
    obtain ⟨name, value⟩ := a
    have hrefit : (r.refit c room).definitions.entities = {} := h
    have hroom : (r.refit c room).room = room := rfl
    simp only [resolveValues?, hrefit, h, hroom,
      Value.attributeValue?_refit depth _ r.room room value, Option.bind_eq_bind, Option.pure_def]
    cases Value.attributeValue? {} depth _ r.room value with
    | none => rfl
    | some p =>
      have hwith : (r.refit c room).withRoom room = (r.withRoom p.2).refit c room := rfl
      simp only [Option.map_some, Option.bind_some, hwith, ih (r := r.withRoom p.2) h]
      cases (r.withRoom p.2).resolveValues? depth rules as <;> rfl

/-- Resolving values changes nothing but the room. -/
theorem exists_room_of_resolveValues? {depth : Nat} {rules : List AttributeRule}
    {written : List (List Char × List Char)} {p : RawAttributes × Reader}
    (h : r.resolveValues? depth rules written = some p) : ∃ k, p.2 = r.withRoom k := by
  induction written generalizing r p with
  | nil =>
    obtain rfl : ([], r) = p := by simpa [resolveValues?] using h
    exact ⟨r.room, rfl⟩
  | cons a as ih =>
    obtain ⟨name, value⟩ := a
    simp only [resolveValues?, Option.bind_eq_bind, Option.pure_def, Option.bind_eq_some_iff] at h
    obtain ⟨v, -, q, hq, hp⟩ := h
    obtain ⟨k, hk⟩ := ih hq
    obtain rfl := Option.some.inj hp
    exact ⟨k, by rw [hk]; rfl⟩

theorem openElement?_refit (h : r.PastFirst) (hopen : r.open_ ≠ []) (depth : Nat) (s : Start) :
    (r.refit c room).openElement? depth s = (r.openElement? depth s).map (refit c room) := by
  have hrules : ∀ tag, r.definitions.rulesFor tag = [] := by
    intro tag
    simp [Definitions.rulesFor, h.rules]
  have hrules' : ∀ tag, (r.refit c room).definitions.rulesFor tag = [] := hrules
  simp only [openElement?, hrules, hrules', resolveValues?_refit c room h.entities,
    Option.bind_eq_bind, Option.pure_def]
  split
  · rfl
  · cases hp : r.resolveValues? depth [] s.attributes.reverse with
    | none => rfl
    | some p =>
      -- values take from the room, which may not be the same, and from nothing else
      obtain ⟨k, hk⟩ := exists_room_of_resolveValues? hp
      obtain ⟨values, r'⟩ := p
      obtain rfl : r' = r.withRoom k := hk
      simp only [Option.map_some, Option.bind_some, scope_refit]
      cases declare? (r.withRoom k).scope (values ++ givenAttributes [] values) with
      | none => rfl
      | some scope =>
        simp only [Option.bind_some]
        cases elementName? scope s.name with
        | none => rfl
        | some tag =>
          simp only [Option.bind_some]
          cases resolve? scope (values ++ givenAttributes [] values) with
          | none => rfl
          | some attributes =>
            by_cases hd : distinct (attributes.map (·.1)) = true
            · simp [hd, refit, withRoom, refitFrames_cons c _ hopen]
            · simp [hd]

/-- An element that is opened inside the root leaves what is around it. -/
theorem pastFirst_openElement? (h : r.PastFirst) (hopen : r.open_ ≠ []) {depth : Nat} {s : Start}
    {r' : Reader} (hr : r.openElement? depth s = some r') : r'.PastFirst ∧ ∃ f, r'.open_ = f :: r.open_ := by
  simp only [openElement?, Option.bind_eq_bind, Option.pure_def] at hr
  split at hr
  · exact absurd hr (by simp)
  · simp only [Option.bind_eq_some_iff] at hr
    obtain ⟨p, hp, scope, -, tag, -, attributes, -, hr⟩ := hr
    obtain ⟨k, hk⟩ := exists_room_of_resolveValues? hp
    split at hr
    · exact absurd hr (by simp)
    · simp only [Option.some.injEq] at hr
      subst hr
      rw [hk]
      refine ⟨⟨h.entities, h.rules, h.outside, by simp, ?_, by simp, by simp⟩, _, rfl⟩
      exact (isRooted_cons _ hopen).2 h.rooted

theorem element_refit (f : Frame) :
    Frame.element { f with children := f.children.dropLast ++ [c] } =
      refitElement c (Frame.element f) := by
  simp [Frame.element, refitElement, List.tail_reverse]

theorem closeElement?_refit (h : r.PastFirst) (name : List Char) :
    (r.refit c room).closeElement? name = (r.closeElement? name).map (refit c room) := by
  unfold closeElement?
  cases ho : r.open_ with
  | nil => simp [refit, ho, refitFrames]
  | cons f fs =>
    cases fs with
    | nil =>
      have hf : f.children ≠ [] := by have := h.rooted; rw [ho] at this; exact this
      by_cases hn : f.name = name
      · subst hn
        simp [refit, ho, refitFrames, h.outside, element_refit c f]
      · simp [refit, ho, refitFrames, hn]
    | cons g gs =>
      by_cases hn : f.name = name
      · cases gs with
        | nil =>
          have hg : g.children ≠ [] := by have := h.rooted; rw [ho] at this; exact this
          simp [refit, ho, refitFrames, hn, List.dropLast_cons_of_ne_nil hg]
        | cons k ks => simp [refit, ho, refitFrames, hn]
      · simp [refit, ho, refitFrames, hn]

theorem pastFirst_closeElement? (h : r.PastFirst) {name : List Char} {r' : Reader}
    (hr : r.closeElement? name = some r') : r'.PastFirst := by
  have hrooted := h.rooted
  unfold closeElement? at hr
  cases ho : r.open_ with
  | nil => simp [ho] at hr
  | cons f fs =>
    rw [ho] at hrooted
    cases fs with
    | nil =>
      simp only [ho, ite_eq_iff, Option.some.injEq, reduceCtorEq, and_false, or_false, false_or] at hr
      obtain ⟨-, -, rfl⟩ := hr
      exact ⟨h.entities, h.rules, h.outside, by simp, trivial, by simp, by simp⟩
    | cons g gs =>
      simp only [ho, ite_eq_iff, Option.some.injEq, reduceCtorEq, and_false, or_false] at hr
      obtain ⟨-, rfl⟩ := hr
      refine ⟨h.entities, h.rules, h.outside, by simp, ?_, by simp, by simp⟩
      cases gs with
      | nil => simp [IsRooted]
      | cons k ks => exact hrooted

/-- A reader settled inside the root goes over to any mode but that of a declaration. -/
theorem PastFirst.turn (h : r.PastFirst) (hopen : r.open_ ≠ []) {m : Mode}
    (hm : ∀ t, m ≠ .documentType t) : (r.turn m).PastFirst :=
  ⟨h.entities, h.rules, h.outside, hm, h.rooted, fun he => absurd he hopen, fun he => absurd he hopen⟩

/-- Adding text changes nothing but the innermost element. -/
theorem exists_addText_eq (r : Reader) (cs : List Char) :
    ∃ fs, r.addText cs = { r with open_ := fs } ∧ (fs = [] ↔ r.open_ = []) := by
  unfold addText
  cases ho : r.open_ with
  | nil => exact ⟨r.open_, rfl, by simp [ho]⟩
  | cons f fs =>
    by_cases hf : f.children.isEmpty = true
    · exact ⟨{ f with lead := cs.reverse ++ f.lead } :: fs, by simp [hf], by simp⟩
    · exact ⟨r.open_, by simp [hf], by simp [ho]⟩

theorem PastFirst.addText (h : r.PastFirst) (cs : List Char) : (r.addText cs).PastFirst := by
  have hrooted := isRooted_addText h.rooted cs
  obtain ⟨fs, heq, hfs⟩ := exists_addText_eq r cs
  rw [heq] at hrooted ⊢
  exact ⟨h.entities, h.rules, h.outside, h.undeclared, hrooted, fun he => h.begun (hfs.1 he),
    fun he => h.behind (hfs.1 he)⟩

theorem addText_ne_nil {cs : List Char} (h : r.open_ ≠ []) : (r.addText cs).open_ ≠ [] := by
  obtain ⟨fs, heq, hfs⟩ := exists_addText_eq r cs
  rw [heq]
  exact fun he => h (hfs.1 he)

theorem behindName?_refit (h : r.PastFirst) (hopen : r.open_ ≠ []) (depth : Nat) (s : Start)
    (x : Char) :
    (r.refit c room).behindName? depth s x = (r.behindName? depth s x).map (refit c room) := by
  unfold behindName?
  split
  · rfl
  · split
    · rfl
    · split
      · exact openElement?_refit c room h hopen depth s
      · rfl

theorem pastFirst_behindName? (h : r.PastFirst) (hopen : r.open_ ≠ []) {depth : Nat} {s : Start}
    {x : Char} {r' : Reader} (hr : r.behindName? depth s x = some r') : r'.PastFirst := by
  unfold behindName? at hr
  split at hr
  · obtain rfl := Option.some.inj hr
    exact h.turn hopen (by simp)
  · split at hr
    · obtain rfl := Option.some.inj hr
      exact h.turn hopen (by simp)
    · split at hr
      · exact (pastFirst_openElement? h hopen hr).1
      · exact absurd hr (by simp)

theorem resume_refit : (r.refit c room).resume = r.resume.refit c room := by
  have h := isEmpty_open_refit (r := r) c room
  unfold resume
  rw [h]
  rfl

theorem PastFirst.resume (h : r.PastFirst) : r.resume.PastFirst := by
  refine ⟨h.entities, h.rules, h.outside, ?_, h.rooted, h.begun, fun he => .inl ?_⟩
  · unfold Reader.resume
    split <;> simp
  · have hopen : r.open_ = [] := he
    simp [Reader.resume, hopen]

/-- References do not depend on the first child, because they stand for characters of their own. -/
theorem refer?_refit (h : r.PastFirst) (expand : Reader → List Char → Option Reader) (t : Referent) :
    (r.refit c room).refer? expand t = (r.refer? expand t).map (refit c room) := by
  have hrefit : (r.refit c room).definitions.entities = {} := h.entities
  cases t with
  | character x => simp only [refer?, addText_refit c room h.rooted]; rfl
  | entity name =>
    simp only [refer?, hrefit, h.entities]
    cases knownEntity? name with
    | none => rfl
    | some x => simp only [addText_refit c room h.rooted]; rfl

theorem pastFirst_refer? (h : r.PastFirst) (hopen : r.open_ ≠ [])
    {expand : Reader → List Char → Option Reader} {t : Referent} {r' : Reader}
    (hr : r.refer? expand t = some r') : r'.PastFirst := by
  have hadd : ∀ x, ((r.addText [x]).turn (.content 0)).PastFirst := fun x =>
    (h.addText [x]).turn (addText_ne_nil hopen) (by simp)
  cases t with
  | character x =>
    obtain rfl := Option.some.inj hr
    exact hadd x
  | entity name =>
    simp only [refer?, h.entities] at hr
    cases hk : knownEntity? name with
    | none => simp [hk] at hr
    | some x =>
      rw [hk] at hr
      obtain rfl := Option.some.inj hr
      exact hadd x

theorem PastFirst.step_eq (h : r.PastFirst) (x : Char) : r.step x = r.stepWith 0 noExpansion x := by
  rw [step, h.entities]
  rfl

/-- Markup with a name, and character data, stand inside the root. -/
theorem PastFirst.open_ne_nil (h : r.PastFirst) (h₁ : r.mode ≠ .outside) (h₂ : r.mode ≠ .opened)
    (h₃ : ∀ cs, r.mode ≠ .declared cs) (h₄ : ∀ a, r.mode ≠ .aside a) : r.open_ ≠ [] := by
  intro he
  rcases h.behind he with hm | hm | ⟨cs, hm⟩ | ⟨a, hm⟩
  · exact h₁ hm
  · exact h₂ hm
  · exact h₃ cs hm
  · exact h₄ a hm

/-- One character is read alike whatever the first child is. -/
theorem step_refit (h : r.PastFirst) (x : Char) :
    (r.refit c room).step x = (r.step x).map (refit c room) := by
  have hrefit : (r.refit c room).step x = (r.refit c room).stepWith 0 noExpansion x := by
    have hentities : (r.refit c room).definitions.entities = {} := h.entities
    rw [step, hentities]
    rfl
  rw [h.step_eq, hrefit]
  unfold stepWith
  rw [mode_refit]
  -- one case for each mode; where an element is opened, the one that holds the first child is still open
  cases hm : r.mode with
  | outside => simp only []; split_ifs <;> rfl
  | content b => simp only [addText_refit c room h.rooted]; split_ifs <;> rfl
  | opened => simp only [isEmpty_open_refit, isSome_root_refit]; split_ifs <;> rfl
  | declared soFar =>
    have htyped : (r.refit c room).typed = r.typed := rfl
    simp only [isEmpty_open_refit, isSome_root_refit, htyped]
    split_ifs <;> rfl
  | aside a =>
    simp only [Option.bind_eq_bind, resume_refit]
    cases a.step x with
    | none => rfl
    | some a => cases a <;> rfl
  | literal b => simp only [addText_refit c room h.rooted]; split_ifs <;> rfl
  | documentType t => exact absurd hm (h.undeclared t)
  | startName soFar =>
    have hopen := h.open_ne_nil (by simp [hm]) (by simp [hm]) (by simp [hm]) (by simp [hm])
    simp only [behindName?_refit c room h hopen]
    split_ifs <;> rfl
  | inStart s =>
    have hopen := h.open_ne_nil (by simp [hm]) (by simp [hm]) (by simp [hm]) (by simp [hm])
    simp only [behindName?_refit c room h hopen]
    split_ifs <;> rfl
  | attributeName s soFar => simp only []; split_ifs <;> rfl
  | beforeEquals s name => simp only []; split_ifs <;> rfl
  | beforeValue s name => simp only []; split_ifs <;> rfl
  | value s name quote soFar => simp only []; split_ifs <;> rfl
  | behindValue s =>
    have hopen := h.open_ne_nil (by simp [hm]) (by simp [hm]) (by simp [hm]) (by simp [hm])
    exact behindName?_refit c room h hopen 0 s x
  | selfClosing s =>
    have hopen := h.open_ne_nil (by simp [hm]) (by simp [hm]) (by simp [hm]) (by simp [hm])
    simp only [openElement?_refit c room h hopen]
    split_ifs
    · cases ho : r.openElement? 0 s with
      | none => rfl
      | some r' => exact closeElement?_refit c room (pastFirst_openElement? h hopen ho).1 s.name
    · rfl
  | endName soFar => simp only [closeElement?_refit c room h]; split_ifs <;> rfl
  | behindEndName name => simp only [closeElement?_refit c room h]; split_ifs <;> rfl
  | reference soFar =>
    simp only []
    split_ifs
    · cases Referent.ofName? soFar.reverse with
      | none => rfl
      | some t => exact refer?_refit c room h noExpansion t
    · rfl
    · rfl

/-- Between pieces of markup outside of names a reader may stand behind the root as well. -/
theorem PastFirst.turn_between (h : r.PastFirst) {m : Mode}
    (hm : m = .outside ∨ m = .opened ∨ (∃ cs, m = .declared cs) ∨ ∃ a, m = .aside a) :
    (r.turn m).PastFirst := by
  refine ⟨h.entities, h.rules, h.outside, ?_, h.rooted, h.begun, fun _ => hm⟩
  rintro t (rfl : m = _)
  simp at hm

/-- Behind the first child a reader stays behind it. -/
theorem pastFirst_step (h : r.PastFirst) {x : Char} {r' : Reader} (hr : r.step x = some r') :
    r'.PastFirst := by
  have hinside : (r.mode ≠ .outside ∧ r.mode ≠ .opened ∧ (∀ cs, r.mode ≠ .declared cs) ∧
      ∀ a, r.mode ≠ .aside a) → r.open_ ≠ [] := fun ⟨h₁, h₂, h₃, h₄⟩ => h.open_ne_nil h₁ h₂ h₃ h₄
  rw [h.step_eq] at hr
  unfold stepWith at hr
  cases hm : r.mode with
  | outside =>
    simp only [hm] at hr
    split_ifs at hr
    · exact Option.some.inj hr ▸ h
    · exact Option.some.inj hr ▸ h.turn_between (by simp)
  | content b =>
    have hopen := hinside (by simp [hm])
    have hadd : ∀ n, ((r.addText [x]).turn (.content n)).PastFirst := fun n =>
      (h.addText [x]).turn (addText_ne_nil hopen) (by simp)
    simp only [hm] at hr
    split_ifs at hr
    · exact Option.some.inj hr ▸ h.turn_between (by simp)
    · exact Option.some.inj hr ▸ h.turn hopen (by simp)
    · exact Option.some.inj hr ▸ hadd _
    · exact Option.some.inj hr ▸ hadd _
  | opened =>
    simp only [hm] at hr
    split_ifs at hr with h₁ h₂ h₃ h₄ h₅ h₆
    · exact Option.some.inj hr ▸ h.turn_between (by simp)
    · exact Option.some.inj hr ▸ h.turn_between (by simp)
    · exact Option.some.inj hr ▸ h.turn (by simpa using h₄) (by simp)
    · refine Option.some.inj hr ▸ h.turn (fun he => h₆ ?_) (by simp)
      simp [he, h.begun he]
  | declared soFar =>
    simp only [hm] at hr
    split_ifs at hr with h₁ h₂ h₃ h₄ h₅ h₆
    · exact Option.some.inj hr ▸ h.turn_between (by simp)
    · exact Option.some.inj hr ▸ h.turn (by simpa using h₃) (by simp)
    · -- no document type is declared behind the start of the root
      refine absurd ?_ h₅
      by_cases he : r.open_ = []
      · simp [h.begun he]
      · simp [he]
    · exact Option.some.inj hr ▸ h.turn_between (by simp)
  | aside a =>
    simp only [hm, Option.bind_eq_bind] at hr
    cases ha : a.step x with
    | none => simp [ha] at hr
    | some b =>
      rw [ha] at hr
      cases b with
      | «over» => exact Option.some.inj hr ▸ h.resume
      | comment n => exact Option.some.inj hr ▸ h.turn_between (by simp)
      | target cs => exact Option.some.inj hr ▸ h.turn_between (by simp)
      | bare => exact Option.some.inj hr ▸ h.turn_between (by simp)
      | instruction b => exact Option.some.inj hr ▸ h.turn_between (by simp)
  | literal b =>
    have hopen := hinside (by simp [hm])
    simp only [hm] at hr
    split_ifs at hr
    · exact Option.some.inj hr ▸ h.addText _
    · exact Option.some.inj hr ▸ h.turn hopen (by simp)
    · exact Option.some.inj hr ▸ h.turn hopen (by simp)
    · exact Option.some.inj hr ▸ (h.addText _).turn (addText_ne_nil hopen) (by simp)
  | documentType t => exact absurd hm (h.undeclared t)
  | startName soFar =>
    have hopen := hinside (by simp [hm])
    simp only [hm] at hr
    split_ifs at hr
    · exact Option.some.inj hr ▸ h.turn hopen (by simp)
    · exact pastFirst_behindName? h hopen hr
  | inStart s =>
    have hopen := hinside (by simp [hm])
    simp only [hm] at hr
    split_ifs at hr
    · exact Option.some.inj hr ▸ h.turn hopen (by simp)
    · exact pastFirst_behindName? h hopen hr
  | attributeName s soFar =>
    have hopen := hinside (by simp [hm])
    simp only [hm] at hr
    split_ifs at hr <;> exact Option.some.inj hr ▸ h.turn hopen (by simp)
  | beforeEquals s name =>
    have hopen := hinside (by simp [hm])
    simp only [hm] at hr
    split_ifs at hr
    · exact Option.some.inj hr ▸ h
    · exact Option.some.inj hr ▸ h.turn hopen (by simp)
  | beforeValue s name =>
    have hopen := hinside (by simp [hm])
    simp only [hm] at hr
    split_ifs at hr
    · exact Option.some.inj hr ▸ h
    · exact Option.some.inj hr ▸ h.turn hopen (by simp)
  | value s name quote soFar =>
    have hopen := hinside (by simp [hm])
    simp only [hm] at hr
    split_ifs at hr <;> exact Option.some.inj hr ▸ h.turn hopen (by simp)
  | behindValue s =>
    have hopen := hinside (by simp [hm])
    simp only [hm] at hr
    exact pastFirst_behindName? h hopen hr
  | selfClosing s =>
    have hopen := hinside (by simp [hm])
    simp only [hm] at hr
    split_ifs at hr
    obtain ⟨r₁, h₁, h₂⟩ := Option.bind_eq_some_iff.1 hr
    exact pastFirst_closeElement? (pastFirst_openElement? h hopen h₁).1 h₂
  | endName soFar =>
    have hopen := hinside (by simp [hm])
    simp only [hm] at hr
    split_ifs at hr
    · exact Option.some.inj hr ▸ h.turn hopen (by simp)
    · exact Option.some.inj hr ▸ h.turn hopen (by simp)
    · exact Option.some.inj hr ▸ h.turn hopen (by simp)
    · exact pastFirst_closeElement? h hr
  | behindEndName name =>
    have hopen := hinside (by simp [hm])
    simp only [hm] at hr
    split_ifs at hr
    · exact Option.some.inj hr ▸ h
    · exact pastFirst_closeElement? h hr
  | reference soFar =>
    have hopen := hinside (by simp [hm])
    simp only [hm] at hr
    split_ifs at hr
    · obtain ⟨t, -, ht⟩ := Option.bind_eq_some_iff.1 hr
      exact pastFirst_refer? h hopen ht
    · exact Option.some.inj hr ▸ h.turn hopen (by simp)

/-- **The rest of a document is read alike whatever the first child is.** -/
theorem run_refit (h : r.PastFirst) (xs : List Char) :
    (r.refit c room).run xs = (r.run xs).map (refit c room) := by
  induction xs generalizing r with
  | nil => rfl
  | cons x xs ih =>
    rw [run_cons, run_cons, step_refit c room h]
    cases hr : r.step x with
    | none => rfl
    | some r' => exact ih (pastFirst_step h hr)

end Reader

end VirtualTopology.Document
