import Mathlib.Logic.Relation
import VirtualTopology.Proofs.Document.Meeting
import VirtualTopology.Proofs.Document.Orderly

/-!
# Decorated documents still match

A host decorates the documents that it stores: it gives elements attributes and children that the declaration says
nothing about, moves children around, stores a machine under its full name and makes up a variable store. The main
result is `Declaration.documentsMatch_decorated`: whatever is declared and renders, its document is met by each
document that is read as a decoration of what is read of its own (`Element.Decorated`).

The invariant is `Element.Stands`: each declared child still stands in a slot among the children that are there, with
its own attributes and text, and in the order of the declaration where that counts; the other slots hold what was
added. It holds at the start (`Orderly.stands`) and is kept by every step, at any depth (`Stands.inside`). An element
that stands is met (`Stands.isMet`): a declared child takes the first element that meets it, which is never the only
one for a later child, because children that are not in order are told apart by an attribute, and no step changes an
attribute that is there.
-/

namespace VirtualTopology

open Document

namespace Element

/-! ### Steps of a host -/

/-- One step of decoration at an element: an attribute that it does not have, other than the firmware; a child that
does not belong to the declaration; or its children in another order, except for those of one tag that belong to the
declaration. -/
inductive Adorns : Element → Element → Prop where
  | give {tag lead : String} {children : List Element} (before after : List (String × String))
      (name value : String) (new : name ∉ (before ++ after).map (·.1)) (free : ¬ (tag = "os" ∧ name = "firmware")) :
      Adorns { tag, attributes := before ++ after, lead, children }
        { tag, attributes := before ++ (name, value) :: after, lead, children }
  | insert {tag lead : String} {attributes : List (String × String)} (before after : List Element) (c : Element)
      (free : c.tag ∉ (Ownership.of tag).children) :
      Adorns { tag, attributes, lead, children := before ++ after }
        { tag, attributes, lead, children := before ++ c :: after }
  | reorder {tag lead : String} {attributes : List (String × String)} {cs ds : List Element} (perm : cs.Perm ds)
      (order : ∀ t ∈ (Ownership.of tag).children, cs.filter (·.tag == t) = ds.filter (·.tag == t)) :
      Adorns { tag, attributes, lead, children := cs } { tag, attributes, lead, children := ds }

/-- A machine is stored under its full name. -/
inductive ExpandsMachine : Element → Element → Prop where
  | mk {lead : String} {children : List Element} (before after : List (String × String)) (declared stored : String)
      (full : (∃ x, stored = "pc-" ++ declared ++ "-" ++ x) ∨ declared = "pc" ∧ ∃ x, stored = "pc-i440fx-" ++ x) :
      ExpandsMachine { tag := "type", attributes := before ++ ("machine", declared) :: after, lead, children }
        { tag := "type", attributes := before ++ ("machine", stored) :: after, lead, children }

/-- A variable store is made up. -/
inductive MakesStore : Element → Element → Prop where
  | mk {lead : String} {attributes : List (String × String)} (before after : List Element) (c : Element)
      (tag : c.tag = "nvram") (ends : ∃ x, c.lead = x ++ "_VARS.fd") :
      MakesStore { tag := "os", attributes, lead, children := before ++ after }
        { tag := "os", attributes, lead, children := before ++ c :: after }

/-- A step at an element or at any depth inside it. -/
inductive Inside (step : Element → Element → Prop) : Element → Element → Prop where
  | here {e f : Element} (h : step e f) : Inside step e f
  | child {tag lead : String} {attributes : List (String × String)} (before after : List Element) {c c' : Element}
      (h : Inside step c c') :
      Inside step { tag, attributes, lead, children := before ++ c :: after }
        { tag, attributes, lead, children := before ++ c' :: after }

/-- What becomes of an element by any number of steps, and whether a machine was expanded and a store made up on the
way: each at most once, and a store only where it is open. -/
inductive Decorated (storeOpen : Prop) : (expanded stored : Bool) → Element → Element → Prop where
  | refl (e : Element) : Decorated storeOpen false false e e
  | adorn {expanded stored : Bool} {e f g : Element} (h : Decorated storeOpen expanded stored e f)
      (step : Inside Adorns f g) : Decorated storeOpen expanded stored e g
  | machine {stored : Bool} {e f g : Element} (h : Decorated storeOpen false stored e f)
      (step : Inside ExpandsMachine f g) : Decorated storeOpen true stored e g
  | store {expanded : Bool} {e f g : Element} (hopen : storeOpen) (h : Decorated storeOpen expanded false e f)
      (step : Inside MakesStore f g) : Decorated storeOpen expanded true e g

/-! ### Slots -/

/-- Where a child of a stored element stands from. -/
inductive Slot where
  /-- A declared child, and what it has become. -/
  | declared (c e : Element)
  | added (e : Element)
  /-- A variable store that was made up. -/
  | store (e : Element)

namespace Slot

/-- The element that is there. -/
def there : Slot → Element
  | declared _ e => e
  | added e => e
  | store e => e

/-- The child that was declared. -/
def declared? : Slot → Option Element
  | declared c _ => some c
  | added _ => none
  | store _ => none

/-- Whether a store was made up. -/
def isStore : Slot → Bool
  | store _ => true
  | _ => false

/-- The slot with another element in it. -/
def put (e : Element) : Slot → Slot
  | declared c _ => declared c e
  | added _ => added e
  | store _ => store e

@[simp] theorem there_put (e : Element) (p : Slot) : (p.put e).there = e := by cases p <;> rfl

@[simp] theorem declared?_put (e : Element) (p : Slot) : (p.put e).declared? = p.declared? := by cases p <;> rfl

@[simp] theorem isStore_put (e : Element) (p : Slot) : (p.put e).isStore = p.isStore := by cases p <;> rfl

end Slot

/-- What holds of an element and its slots, apart from what holds inside them. -/
structure Level (expanded stored : Bool) (d s : Element) (slots : List Slot) : Prop where
  tag_eq : s.tag = d.tag
  lead_eq : s.lead = d.lead
  attributes : ∀ a ∈ d.attributes, ∃ w, s.attribute? a.1 = some w ∧
    (w = a.2 ∨ expanded = true ∧ d.tag = "type" ∧ a.1 = "machine" ∧ isMachineOf a.2 w = true)
  firmware : d.tag = "os" → d.attribute? "firmware" = none → s.attribute? "firmware" = none
  children : s.children = slots.map Slot.there
  mem_iff : ∀ c, c ∈ slots.filterMap Slot.declared? ↔ c ∈ d.children
  order : ∀ t ∈ (Ownership.of d.tag).children, (slots.filterMap Slot.declared?).filter (·.tag == t) = d.all t
  added : ∀ e, .added e ∈ slots → e.tag ∉ (Ownership.of d.tag).children
  store : ∀ e, .store e ∈ slots → isMadeUp d [e] = true ∧ d.all "nvram" = []
  once : slots.countP Slot.isStore ≤ stored.toNat

/-- Whether a declared element still stands in a stored one, up to a machine that was expanded and a store that was
made up. -/
inductive Stands (expanded stored : Bool) : Element → Element → Prop where
  | mk {d s : Element} (slots : List Slot) (level : Level expanded stored d s slots)
      (inside : ∀ c e, .declared c e ∈ slots → Stands expanded stored c e) : Stands expanded stored d s

namespace Slot

theorem mem_declared?_iff {slots : List Slot} {c : Element} :
    c ∈ slots.filterMap declared? ↔ ∃ e, .declared c e ∈ slots := by
  rw [List.mem_filterMap]
  constructor
  · rintro ⟨p, hp, hc⟩
    cases p with
    | declared c' e =>
      obtain rfl := Option.some.inj hc
      exact ⟨e, hp⟩
    | added e => exact nomatch hc
    | store e => exact nomatch hc
  · rintro ⟨e, he⟩
    exact ⟨_, he, rfl⟩

end Slot

/-! ### At the start -/

/-- **An orderly element stands in itself.** -/
theorem Orderly.stands {storeOpen : Prop} {e : Element} (he : e.Orderly storeOpen) : e.Stands false false e := by
  induction he with
  | @mk tag attributes lead children _ legible _ _ _ ih =>
    have hdeclared : (children.map fun c => Slot.declared c c).filterMap Slot.declared? = children := by
      rw [List.filterMap_map]
      exact List.filterMap_some
    refine .mk (children.map fun c => .declared c c) ⟨rfl, rfl, fun a ha => ⟨a.2, ?_, .inl rfl⟩, fun _ h => h, ?_,
      fun c => by rw [hdeclared], fun t _ => by rw [hdeclared, all], ?_, ?_, ?_⟩ ?_
    · exact lookup_of_mem_of_nodup legible.nodup ha
    · rw [List.map_map]
      exact (List.map_id' children).symm
    · exact fun e he => absurd he (by simp)
    · exact fun e he => absurd he (by simp)
    · simp [Slot.isStore]
    · intro c e hc
      obtain ⟨c', hc', heq⟩ := List.mem_map.1 hc
      obtain ⟨rfl, rfl⟩ := Slot.declared.inj heq
      exact ih c' hc'

/-! ### Steps at any depth -/

theorem Orderly.child {storeOpen : Prop} {e c : Element} (he : e.Orderly storeOpen) (hc : c ∈ e.children) :
    c.Orderly storeOpen := by
  cases he with
  | mk _ _ _ _ inside => exact inside c hc

theorem Stands.tag_eq {expanded stored : Bool} {d s : Element} (h : Stands expanded stored d s) : s.tag = d.tag := by
  cases h with
  | mk slots level _ => exact level.tag_eq

section

variable {expanded stored expanded' stored' : Bool} (hexpanded : expanded = true → expanded' = true)
  (hstored : stored = true → stored' = true)

include hexpanded hstored

theorem Level.mono {d s : Element} {slots : List Slot} (h : Level expanded stored d s slots) :
    Level expanded' stored' d s slots :=
  { h with
    attributes := fun a ha =>
      let ⟨w, hw, hmet⟩ := h.attributes a ha
      ⟨w, hw, hmet.imp_right fun ⟨hx, hmachine⟩ => ⟨hexpanded hx, hmachine⟩⟩
    once := h.once.trans (by cases stored <;> simp_all) }

theorem Stands.mono {d s : Element} (h : Stands expanded stored d s) : Stands expanded' stored' d s := by
  induction h with
  | mk slots level _ ih => exact .mk slots (level.mono hexpanded hstored) ih

end

/-- **A step that keeps an element standing does so at any depth.** Inside a child, the child's slot gets what the
child becomes; everything else is as it was. -/
theorem Stands.inside {storeOpen : Prop} {step : Element → Element → Prop} {expanded stored expanded' stored' : Bool}
    (hexpanded : expanded = true → expanded' = true) (hstored : stored = true → stored' = true)
    (hkeep : ∀ {e f}, step e f → f.tag = e.tag ∧ f.lead = e.lead)
    (hstep : ∀ {d e f : Element}, d.Orderly storeOpen → Stands expanded stored d e → step e f →
      Stands expanded' stored' d f)
    {d s s' : Element} (hd : d.Orderly storeOpen) (h : Stands expanded stored d s) (hs : Inside step s s') :
    Stands expanded' stored' d s' := by
  -- by induction on the depth: the child that is changed keeps its tag and its lead, so its slot stays of one sort
  induction hs generalizing d with
  | here hs => exact hstep hd h hs
  | @child tag lead attributes before after c c' hc ih =>
    have hsame : c'.tag = c.tag ∧ c'.lead = c.lead := by
      cases hc with
      | here hs => exact hkeep hs
      | child _ _ _ => exact ⟨rfl, rfl⟩
    have hmade : ∀ d : Element, isMadeUp d [c'] = isMadeUp d [c] := fun d => by
      simp only [isMadeUp, hsame.1, hsame.2]
    obtain ⟨slots, level, inside⟩ := h
    obtain ⟨front, back, rfl, rfl, hback⟩ := List.map_eq_append_iff.1 level.children.symm
    obtain ⟨p, rest, rfl, rfl, rfl⟩ := List.map_eq_cons_iff.1 hback
    have hdeclared : (front ++ p.put c' :: rest).filterMap Slot.declared?
        = (front ++ p :: rest).filterMap Slot.declared? := by
      simp [List.filterMap_append, List.filterMap_cons]
    -- all slots but one are as they were
    have hrest : ∀ q, q ∈ front ++ p.put c' :: rest → q = p.put c' ∨ q ∈ front ++ p :: rest := by
      intro q hq
      simp only [List.mem_append, List.mem_cons] at hq ⊢
      tauto
    refine .mk (front ++ p.put c' :: rest) { level.mono hexpanded hstored with
      children := by simp
      mem_iff := fun c => by rw [hdeclared, level.mem_iff]
      order := fun t ht => by rw [hdeclared, level.order t ht]
      added := fun e he => ?_
      store := fun e he => ?_
      once := ?_ } fun c₀ e he => ?_
    · rcases hrest _ he with hput | hmem
      · cases p with
        | added c =>
          obtain rfl := Slot.added.inj hput
          exact hsame.1 ▸ level.added c (by simp)
        | declared c₀ c => exact nomatch hput
        | store c => exact nomatch hput
      · exact level.added e hmem
    · rcases hrest _ he with hput | hmem
      · cases p with
        | store c =>
          obtain rfl := Slot.store.inj hput
          exact hmade d ▸ level.store c (by simp)
        | declared c₀ c => exact nomatch hput
        | added c => exact nomatch hput
      · exact level.store e hmem
    · have honce := (level.mono hexpanded hstored).once
      simpa [List.countP_append, List.countP_cons] using honce
    · rcases hrest _ he with hput | hmem
      · cases p with
        | declared c₁ c =>
          obtain ⟨rfl, rfl⟩ := Slot.declared.inj hput
          have hchild : c₀ ∈ d.children := (level.mem_iff c₀).1 (Slot.mem_declared?_iff.2 ⟨c, by simp⟩)
          exact ih (hd.child hchild) (inside c₀ c (by simp))
        | added c => exact nomatch hput
        | store c => exact nomatch hput
      · exact (inside c₀ e hmem).mono hexpanded hstored

/-! ### The steps -/

theorem lookup_append_cons_of_ne {before after : List (String × String)} {name value k : String} (h : k ≠ name) :
    (before ++ (name, value) :: after).lookup k = (before ++ after).lookup k := by
  have hne : (k == name) = false := beq_eq_false_iff_ne.2 h
  rw [List.lookup_append, List.lookup_append, List.lookup_cons, hne]

section

variable {storeOpen : Prop} {expanded stored : Bool} {d s : Element}

/-- A new attribute changes none that is there. -/
theorem Stands.give {tag lead : String} {children : List Element} {before after : List (String × String)}
    {name value : String} (new : name ∉ (before ++ after).map (·.1)) (free : ¬ (tag = "os" ∧ name = "firmware"))
    (h : Stands expanded stored d { tag, attributes := before ++ after, lead, children }) :
    Stands expanded stored d { tag, attributes := before ++ (name, value) :: after, lead, children } := by
  obtain ⟨slots, level, inside⟩ := h
  refine .mk slots { level with attributes := fun a ha => ?_, firmware := fun htag hnone => ?_ } inside
  · obtain ⟨w, hw, hmet⟩ := level.attributes a ha
    refine ⟨w, (lookup_append_cons_of_ne ?_).trans hw, hmet⟩
    rintro rfl
    obtain ⟨l, r, hsplit, -⟩ := List.lookup_eq_some_iff.1 hw
    have hmem : (a.1, w) ∈ before ++ after := by
      rw [show before ++ after = l ++ (a.1, w) :: r from hsplit]
      simp
    exact new (List.mem_map.2 ⟨(a.1, w), hmem, rfl⟩)
  · refine (lookup_append_cons_of_ne ?_).trans (level.firmware htag hnone)
    exact fun hname => free ⟨level.tag_eq.trans htag, hname.symm⟩

/-- A child that does not belong to the declaration gets a slot of its own. -/
theorem Stands.insert {tag lead : String} {attributes : List (String × String)} {before after : List Element}
    {c : Element} (free : c.tag ∉ (Ownership.of tag).children)
    (h : Stands expanded stored d { tag, attributes, lead, children := before ++ after }) :
    Stands expanded stored d { tag, attributes, lead, children := before ++ c :: after } := by
  obtain ⟨slots, level, inside⟩ := h
  obtain ⟨front, back, rfl, rfl, rfl⟩ := List.map_eq_append_iff.1 level.children.symm
  have htag : tag = d.tag := level.tag_eq
  have hdeclared : (front ++ .added c :: back).filterMap Slot.declared? = (front ++ back).filterMap Slot.declared? := by
    rw [List.filterMap_append, List.filterMap_append]
    rfl
  have hrest : ∀ q, q ∈ front ++ .added c :: back → q = .added c ∨ q ∈ front ++ back := by
    intro q hq
    simp only [List.mem_append, List.mem_cons] at hq ⊢
    tauto
  -- nothing is said of the new slot but that it is not owned
  refine .mk (front ++ .added c :: back) { level with
    children := by simp [Slot.there]
    mem_iff := fun c => by rw [hdeclared, level.mem_iff]
    order := fun t ht => by rw [hdeclared, level.order t ht]
    added := fun e he => ?_
    store := fun e he => ?_
    once := ?_ } fun c₀ e he => ?_
  · rcases hrest _ he with hadded | hmem
    · obtain rfl := Slot.added.inj hadded
      exact htag ▸ free
    · exact level.added e hmem
  · rcases hrest _ he with hadded | hmem
    · exact nomatch hadded
    · exact level.store e hmem
  · simpa [List.countP_append, List.countP_cons, Slot.isStore] using level.once
  · rcases hrest _ he with hadded | hmem
    · exact nomatch hadded
    · exact inside c₀ e hmem

/-- Two neighbours change places, unless they are of one tag that belongs to the declaration. -/
theorem Stands.swap {tag lead : String} {attributes : List (String × String)} {before after : List Element}
    {c c' : Element} (free : c.tag = c'.tag → c.tag ∉ (Ownership.of tag).children)
    (h : Stands expanded stored d { tag, attributes, lead, children := before ++ c :: c' :: after }) :
    Stands expanded stored d { tag, attributes, lead, children := before ++ c' :: c :: after } := by
  obtain ⟨slots, level, inside⟩ := h
  obtain ⟨front, back, rfl, rfl, hback⟩ := List.map_eq_append_iff.1 level.children.symm
  obtain ⟨p, behind, rfl, rfl, hbehind⟩ := List.map_eq_cons_iff.1 hback
  obtain ⟨q, back, rfl, rfl, rfl⟩ := List.map_eq_cons_iff.1 hbehind
  have hperm : (front ++ q :: p :: back).Perm (front ++ p :: q :: back) := (List.Perm.swap p q back).append_left front
  -- A declared child has the tag of what is there, so at most one of the two is among those of a tag that counts.
  have hnone : ∀ r ∈ front ++ p :: q :: back, ∀ t, r.there.tag ≠ t →
      ([r].filterMap Slot.declared?).filter (·.tag == t) = [] := by
    intro r hr t hne
    cases r with
    | declared c₀ e =>
      have htag : c₀.tag ≠ t := (inside c₀ e hr).tag_eq ▸ hne
      simp [Slot.declared?, htag]
    | added e => rfl
    | store e => rfl
  refine .mk (front ++ q :: p :: back) { level with
    children := by simp
    mem_iff := fun c => by rw [(hperm.filterMap _).mem_iff, level.mem_iff]
    order := fun t ht => ?_
    added := fun e he => level.added e (hperm.mem_iff.1 he)
    store := fun e he => level.store e (hperm.mem_iff.1 he)
    once := by rw [hperm.countP_eq]; exact level.once } fun c₀ e he => inside c₀ e (hperm.mem_iff.1 he)
  have hcomm : ([q].filterMap Slot.declared?).filter (·.tag == t) ++ ([p].filterMap Slot.declared?).filter (·.tag == t)
      = ([p].filterMap Slot.declared?).filter (·.tag == t) ++ ([q].filterMap Slot.declared?).filter (·.tag == t) := by
    by_cases hp : p.there.tag = t
    · have hq : q.there.tag ≠ t := fun hq => by
        have htag : tag = d.tag := level.tag_eq
        have hnot := free (hp.trans hq.symm)
        rw [hp, htag] at hnot
        exact hnot ht
      rw [hnone q (by simp) t hq, List.nil_append, List.append_nil]
    · rw [hnone p (by simp) t hp, List.nil_append, List.append_nil]
  have hsplit : ∀ a b : Slot, ((front ++ a :: b :: back).filterMap Slot.declared?).filter (·.tag == t)
      = (front.filterMap Slot.declared?).filter (·.tag == t) ++
        (([a].filterMap Slot.declared?).filter (·.tag == t) ++ ([b].filterMap Slot.declared?).filter (·.tag == t)) ++
          (back.filterMap Slot.declared?).filter (·.tag == t) := fun a b => by
    have hlist : front ++ a :: b :: back = front ++ ([a] ++ [b]) ++ back := by simp
    rw [hlist]
    simp only [List.filterMap_append, List.filter_append]
  rw [← level.order t ht, hsplit, hsplit, hcomm]

end

/-- Two neighbours that change places, if they are not of one tag among some. -/
inductive Swap (tags : List String) : List Element → List Element → Prop where
  | mk (before after : List Element) (c c' : Element) (free : c.tag = c'.tag → c.tag ∉ tags) :
      Swap tags (before ++ c :: c' :: after) (before ++ c' :: c :: after)

theorem Swap.cons {tags : List String} {cs ds : List Element} (e : Element) (h : Swap tags cs ds) :
    Swap tags (e :: cs) (e :: ds) := by
  obtain ⟨before, after, c, c', free⟩ := h
  exact .mk (e :: before) after c c' free

/-- An element is brought to the front over others, if it shares no tag with them that counts. -/
theorem swaps_to_front {tags : List String} {d : Element} {front : List Element}
    (h : ∀ e ∈ front, e.tag = d.tag → e.tag ∉ tags) (back : List Element) :
    Relation.ReflTransGen (Swap tags) (front ++ d :: back) (d :: (front ++ back)) := by
  induction front with
  | nil => exact .refl
  | cons e es ih =>
    have hinner : Relation.ReflTransGen (Swap tags) (e :: (es ++ d :: back)) (e :: d :: (es ++ back)) :=
      (ih fun c hc => h c (by simp [hc])).lift (e :: ·) fun _ _ => Swap.cons e
    exact hinner.tail (.mk [] (es ++ back) e d (h e (by simp)))

/-- **Another order is reached by swaps of neighbours**, if the elements of each tag that counts keep theirs. The
induction is on the order to be reached, whose first element is brought to the front. -/
theorem exists_swaps {tags : List String} {cs ds : List Element} (perm : cs.Perm ds)
    (order : ∀ t ∈ tags, cs.filter (·.tag == t) = ds.filter (·.tag == t)) :
    Relation.ReflTransGen (Swap tags) cs ds := by
  induction ds generalizing cs with
  | nil =>
    rw [perm.eq_nil]
  | cons d ds ih =>
    obtain ⟨front, back, rfl, hfront⟩ : ∃ front back, cs = front ++ d :: back ∧
        ∀ e ∈ front, e.tag = d.tag → e.tag ∉ tags := by
      -- if its tag counts it is the first of its tag, so only elements with other tags stand in front
      by_cases hd : d.tag ∈ tags
      · have hfirst := order d.tag hd
        rw [List.filter_cons_of_pos (by simp)] at hfirst
        obtain ⟨front, back, rfl, hnone, -, -⟩ := List.filter_eq_cons_iff.1 hfirst
        exact ⟨front, back, rfl, fun e he htag => absurd htag (by simpa using hnone e he)⟩
      · obtain ⟨front, back, rfl⟩ := List.append_of_mem (perm.mem_iff.2 List.mem_cons_self)
        exact ⟨front, back, rfl, fun e _ htag => htag ▸ hd⟩
    have hrest : Relation.ReflTransGen (Swap tags) (front ++ back) ds := by
      refine ih ((List.perm_middle.symm.trans perm).cons_inv) fun t ht => ?_
      have htail := order t ht
      rw [List.filter_append, List.filter_cons, List.filter_cons] at htail
      rw [List.filter_append]
      by_cases hd : d.tag = t
      · have hnone : front.filter (·.tag == t) = [] :=
          List.filter_eq_nil_iff.2 fun e he htag => by
            have htag : e.tag = t := by simpa using htag
            exact hfront e he (htag.trans hd.symm) (htag ▸ ht)
        rw [hnone] at htail ⊢
        simpa [hd] using htail
      · simpa [hd] using htail
    exact (swaps_to_front hfront back).trans (hrest.lift (d :: ·) fun _ _ => Swap.cons d)

section

variable {storeOpen : Prop} {expanded stored : Bool} {d s s' : Element}

theorem Stands.reorder {tag lead : String} {attributes : List (String × String)} {cs ds : List Element}
    (swaps : Relation.ReflTransGen (Swap (Ownership.of tag).children) cs ds)
    (h : Stands expanded stored d { tag, attributes, lead, children := cs }) :
    Stands expanded stored d { tag, attributes, lead, children := ds } := by
  induction swaps with
  | refl => exact h
  | tail _ hswap ih =>
    obtain ⟨before, after, c, c', free⟩ := hswap
    exact ih.swap free

theorem Stands.adorn (h : Stands expanded stored d s) (hs : Adorns s s') : Stands expanded stored d s' := by
  cases hs with
  | give before after name value new free => exact h.give new free
  | insert before after c free => exact h.insert free
  | reorder perm order => exact h.reorder (exists_swaps perm order)

theorem isPrefixOf_append (p x : String) : p.toList.isPrefixOf (p ++ x).toList = true :=
  List.isPrefixOf_iff_prefix.2 ⟨x.toList, (String.toList_append).symm⟩

/-- **A machine that has not been expanded** may be. -/
theorem Stands.expand (h : Stands false stored d s) (hs : ExpandsMachine s s') : Stands true stored d s' := by
  obtain ⟨before, after, declared, full, hfull⟩ := hs
  have hmachine : isMachineOf declared full = true := by
    rw [isMachineOf, Bool.or_eq_true, Bool.and_eq_true, beq_iff_eq]
    rcases hfull with ⟨x, rfl⟩ | ⟨hpc, x, rfl⟩
    · exact .inl (isPrefixOf_append _ x)
    · exact .inr ⟨hpc, isPrefixOf_append _ x⟩
  obtain ⟨slots, level, inside⟩ := h
  have htag : "type" = d.tag := level.tag_eq
  -- no attribute but the machine has another value
  have hlookup : ∀ k w, (before ++ ("machine", declared) :: after).lookup k = some w →
      (before ++ ("machine", full) :: after).lookup k = some w ∨
        k = "machine" ∧ w = declared ∧ (before ++ ("machine", full) :: after).lookup k = some full := by
    intro k w hw
    by_cases hk : k = "machine"
    · subst hk
      rw [List.lookup_append, List.lookup_cons_self] at hw ⊢
      cases hbefore : before.lookup "machine" with
      | some v => exact .inl (by rwa [hbefore] at hw)
      | none =>
        rw [hbefore, Option.none_or] at hw
        exact .inr ⟨rfl, (Option.some.inj hw).symm, rfl⟩
    · rw [lookup_append_cons_of_ne hk] at hw ⊢
      exact .inl hw
  refine .mk slots { level with attributes := fun a ha => ?_, firmware := fun hos _ => ?_ }
    fun c e he => (inside c e he).mono (by simp) id
  · obtain ⟨w, hw, rfl | ⟨hfalse, -⟩⟩ := level.attributes a ha
    · rcases hlookup a.1 a.2 hw with hsame | ⟨hname, hvalue, hnew⟩
      · exact ⟨a.2, hsame, .inl rfl⟩
      · exact ⟨full, hnew, .inr ⟨rfl, htag.symm, hname, hvalue ▸ hmachine⟩⟩
    · exact absurd hfalse (by simp)
  · exact absurd (htag.trans hos) (by decide)

/-- An ending without blanks is not trimmed. -/
theorem isSuffixOf_trim {x y ending : String} (h : x = y ++ ending)
    (hending : ∀ c ∈ ending.toList, Text.isBlank c = false) :
    ending.toList.isSuffixOf (Text.trim x).toList = true := by
  have hfront : ∃ z, (y.toList ++ ending.toList).dropWhile Text.isBlank = z ++ ending.toList := by
    rw [List.dropWhile_append]
    split
    · exact ⟨[], Text.dropWhile_eq_self_of_head hending⟩
    · exact ⟨_, rfl⟩
  obtain ⟨z, hz⟩ := hfront
  rw [Text.trim, String.toList_ofList, Text.trimBy, h, String.toList_append, hz, List.reverse_append]
  cases hback : ending.toList.reverse with
  | nil => simp [List.reverse_eq_nil_iff.1 hback]
  | cons c cs =>
    have hc : Text.isBlank c = false := hending c (List.mem_reverse.1 (by simp [hback]))
    rw [List.cons_append, List.dropWhile_cons_of_neg (by simp [hc]), ← List.cons_append, ← hback, ← List.reverse_append,
      List.reverse_reverse]
    exact List.isSuffixOf_iff_suffix.2 ⟨z, rfl⟩

/-- **A store that has not been made up** may be, where it is open. -/
theorem Stands.store (hopen : storeOpen) (hd : d.Orderly storeOpen) (h : Stands expanded false d s)
    (hs : MakesStore s s') : Stands expanded true d s' := by
  obtain ⟨before, after, c, htag, y, hends⟩ := hs
  obtain ⟨slots, level, inside⟩ := h
  obtain ⟨front, back, rfl, rfl, rfl⟩ := List.map_eq_append_iff.1 level.children.symm
  have hos : d.tag = "os" := level.tag_eq.symm
  obtain ⟨hfirmware, hnone⟩ : (d.attribute? "firmware").isSome = true ∧ ∀ c ∈ d.children, c.tag ≠ "nvram" := by
    cases hd with
    | mk _ _ _ store _ => exact store hopen hos
  have hmade : isMadeUp d [c] = true ∧ d.all "nvram" = [] := by
    refine ⟨?_, List.filter_eq_nil_iff.2 fun c hc => by simpa using hnone c hc⟩
    have hsuffix := isSuffixOf_trim hends (by decide)
    simp only [isMadeUp, hos, hfirmware, htag, hsuffix, beq_self_eq_true, Bool.and_true]
  have hdeclared : (front ++ .store c :: back).filterMap Slot.declared? = (front ++ back).filterMap Slot.declared? := by
    rw [List.filterMap_append, List.filterMap_append]
    rfl
  have hrest : ∀ q, q ∈ front ++ .store c :: back → q = .store c ∨ q ∈ front ++ back := by
    intro q hq
    simp only [List.mem_append, List.mem_cons] at hq ⊢
    tauto
  -- no store has been made up so far, so this is the only one
  have hzero : (front ++ back).countP Slot.isStore = 0 := Nat.le_zero.1 level.once
  refine .mk (front ++ .store c :: back) { level with
    children := by simp [Slot.there]
    mem_iff := fun c => by rw [hdeclared, level.mem_iff]
    order := fun t ht => by rw [hdeclared, level.order t ht]
    added := fun e he => ?_
    store := fun e he => ?_
    once := ?_ } fun c₀ e he => ?_
  · rcases hrest _ he with hstore | hmem
    · exact nomatch hstore
    · exact level.added e hmem
  · rcases hrest _ he with hstore | hmem
    · obtain rfl := Slot.store.inj hstore
      exact hmade
    · exact level.store e hmem
  · rw [List.countP_append] at hzero
    rw [List.countP_append, List.countP_cons_of_pos rfl]
    exact Nat.succ_le_succ hzero.le
  · rcases hrest _ he with hstore | hmem
    · exact nomatch hstore
    · exact (inside c₀ e hmem).mono id (by simp)

/-- **What stands still does** after any number of steps. -/
theorem Decorated.stands {e f : Element} (he : e.Orderly storeOpen) (h : Decorated storeOpen expanded stored e f) :
    Stands expanded stored e f := by
  induction h with
  | refl e => exact he.stands
  | adorn _ step ih =>
    refine (ih he).inside id id ?_ (fun _ h hs => h.adorn hs) he step
    rintro e f ⟨⟩ <;> exact ⟨rfl, rfl⟩
  | machine _ step ih =>
    refine (ih he).inside (by simp) id ?_ (fun _ h hs => h.expand hs) he step
    rintro e f ⟨⟩
    exact ⟨rfl, rfl⟩
  | store hopen _ step ih =>
    refine (ih he).inside id (by simp) ?_ (fun hd h hs => h.store hopen hd hs) he step
    rintro e f ⟨⟩
    exact ⟨rfl, rfl⟩

end

/-! ### What stands is met -/

/-- What holds of all that the table of ownership says holds of what it says about a tag. -/
theorem ownership_of {p : String → Ownership → Prop} (hnone : ∀ t, p t {}) (hall : ∀ o ∈ ownership, p o.1 o.2)
    (t : String) : p t (Ownership.of t) := by
  rw [Ownership.of]
  cases hlookup : ownership.lookup t with
  | none => exact hnone t
  | some o =>
    obtain ⟨before, after, hsplit, -⟩ := List.lookup_eq_some_iff.1 hlookup
    exact hall (t, o) (by simp [hsplit])

theorem isWord_of_owned {t : String} : ∀ c ∈ (Ownership.of t).children, isWord c.toList = true :=
  ownership_of (p := fun _ o => ∀ c ∈ o.children, isWord c.toList = true) (by simp) (by decide) t

theorem firmware_of_owned {t : String} : ∀ a ∈ (Ownership.of t).attributes, t = "os" ∧ a = "firmware" :=
  ownership_of (p := fun t o => ∀ a ∈ o.attributes, t = "os" ∧ a = "firmware") (by simp) (by decide) t

/-- **Elements with partners of their own** find one each. The first one that meets a declared element is not the
partner of a later one, because that does not meet it. -/
theorem metAnywhere_of_partners {partner : Element → Element → Prop} {ds es : List Element}
    (hapart : ds.Pairwise fun b c => ∀ e, partner c e → b.isMet e = false)
    (hpartner : ∀ c ∈ ds, ∃ e ∈ es, c.isMet e = true ∧ partner c e) : metAnywhere (ds.map isMet) es = true := by
  induction ds generalizing es with
  | nil => rfl
  | cons d ds ih =>
    obtain ⟨e, he, hmet, -⟩ := hpartner d List.mem_cons_self
    obtain ⟨hfirst, hrest⟩ := List.pairwise_cons.1 hapart
    rw [List.map_cons, metAnywhere]
    obtain ⟨rest, htaken⟩ := Option.isSome_iff_exists.1 (isSome_takeOut? he hmet)
    obtain ⟨f, hf, hperm⟩ := mem_of_takeOut? htaken
    rw [htaken, Option.elim_some]
    refine ih hrest fun c hc => ?_
    obtain ⟨e, he, hmet, hce⟩ := hpartner c (List.mem_cons_of_mem d hc)
    rcases List.mem_cons.1 (hperm.mem_iff.1 he) with rfl | he
    · exact absurd hf (by simp [hfirst c hc e hce])
    · exact ⟨e, he, hmet, hce⟩

section

variable {storeOpen : Prop} {expanded stored : Bool} {d s : Element} {slots : List Slot}

/-- Declared children of a tag meet those that are there in order, if all of these were declared. -/
theorem forall₂_of_slots {t : String} (htag : ∀ c e, .declared c e ∈ slots → e.tag = c.tag)
    (hall : ∀ p ∈ slots, p.there.tag = t → ∃ c e, p = .declared c e ∧ c.isMet e = true) :
    List.Forall₂ (fun d s => d.isMet s = true) ((slots.filterMap Slot.declared?).filter (·.tag == t))
      ((slots.map Slot.there).filter (·.tag == t)) := by
  induction slots with
  | nil => exact .nil
  | cons p slots ih =>
    have hrest := ih (fun c e he => htag c e (by simp [he])) fun q hq => hall q (by simp [hq])
    have hcons : ∀ c e, (Slot.declared c e :: slots).filterMap Slot.declared? = c :: slots.filterMap Slot.declared? :=
      fun _ _ => rfl
    by_cases hp : p.there.tag = t
    · obtain ⟨c, e, rfl, hmet⟩ := hall p List.mem_cons_self hp
      have hc : c.tag = t := (htag c e List.mem_cons_self).symm.trans hp
      rw [hcons, List.map_cons, List.filter_cons_of_pos (by simpa using hc),
        List.filter_cons_of_pos (by simpa using hp)]
      exact .cons hmet hrest
    · rw [List.map_cons, List.filter_cons_of_neg (by simpa using hp)]
      cases p with
      | declared c e =>
        have hc : c.tag ≠ t := fun hc => hp ((htag c e List.mem_cons_self).trans hc)
        rwa [hcons, List.filter_cons_of_neg (by simpa using hc)]
      | added e => exact hrest
      | store e => exact hrest

/-- With at most one store among the slots, those with its tag are the store, if no other slot has the tag. -/
theorem filter_there_of_store {t : String} (honce : slots.countP Slot.isStore ≤ 1) {e : Element}
    (he : .store e ∈ slots) (htag : e.tag = t) (hothers : ∀ p ∈ slots, p.there.tag = t → p.isStore = true) :
    (slots.map Slot.there).filter (·.tag == t) = [e] := by
  obtain ⟨front, back, rfl⟩ := List.append_of_mem he
  rw [List.countP_append, List.countP_cons_of_pos rfl] at honce
  have hnone : ∀ ps : List Slot, ps.countP Slot.isStore = 0 → (∀ p ∈ ps, p.there.tag = t → p.isStore = true) →
      (ps.map Slot.there).filter (·.tag == t) = [] := by
    intro ps hzero hps
    rw [List.countP_eq_zero] at hzero
    exact List.filter_eq_nil_iff.2 (List.forall_mem_map.2 fun p hp htag => hzero p hp (hps p hp (by simpa using htag)))
  rw [List.map_append, List.map_cons, List.filter_append, List.filter_cons_of_pos (by simpa [Slot.there] using htag),
    hnone front (by omega) fun p hp => hothers p (by simp [hp]),
    hnone back (by omega) fun p hp => hothers p (by simp [hp])]
  rfl

/-- A store that was made up is the only child of its kind: none is declared, and none may be added. -/
theorem Level.all_store (level : Level expanded stored d s slots)
    (htag : ∀ c e, .declared c e ∈ slots → e.tag = c.tag) {e : Element} (he : .store e ∈ slots) :
    s.all "nvram" = [e] := by
  obtain ⟨hmade, hnone⟩ := level.store e he
  simp only [isMadeUp, Bool.and_eq_true, beq_iff_eq] at hmade
  have hos : d.tag = "os" := hmade.1.1.1
  rw [all, level.children]
  refine filter_there_of_store (level.once.trans stored.toNat_le) he hmade.1.2 fun p hp hnvram => ?_
  cases p with
  | store e => rfl
  | declared c e =>
    have hc : c ∈ d.all "nvram" :=
      List.mem_filter.2 ⟨(level.mem_iff c).1 (Slot.mem_declared?_iff.2 ⟨e, hp⟩), by
        simpa [Slot.there, htag c e hp] using hnvram⟩
    exact absurd hc (by simp [hnone])
  | added e =>
    have hfree : e.tag ∉ (Ownership.of "os").children := hos ▸ level.added e hp
    rw [show e.tag = "nvram" from hnvram] at hfree
    exact absurd (by decide) hfree

theorem Level.attributesMet (level : Level expanded stored d s slots) : attributesMet d s = true := by
  rw [Document.attributesMet, Bool.and_eq_true, List.all_eq_true, List.all_eq_true]
  refine ⟨fun a ha => ?_, fun a ha => ?_⟩
  · obtain ⟨w, hw, hmet⟩ := level.attributes a ha
    rw [hw]
    rcases hmet with rfl | ⟨-, htype, hmachine, hof⟩
    · simp [attributeMet]
    · simp [attributeMet, htype, hmachine, hof]
  · obtain ⟨hos, rfl⟩ := firmware_of_owned a ha
    cases hd : d.attribute? "firmware" with
    | some v => rfl
    | none => simp [level.firmware hos hd]

/-- An element is not met by one that kept the attributes of another it differs from. -/
theorem Differ.isMet_eq_false {b c e : Element} (h : b.Differ c) (htag : b.tag = c.tag)
    (level : Level expanded stored c e slots) : b.isMet e = false := by
  obtain ⟨hne, name, v, w, hv, hw, hvw⟩ := h
  have hthere : e.attribute? name = some w := by
    obtain ⟨x, hx, hkept | ⟨-, htype, -⟩⟩ := level.attributes (name, w) hw
    · exact hx.trans (congrArg some hkept)
    · exact absurd (htag.trans htype) hne
  have hvalue : v ≠ w := fun h => hvw (congrArg shown h)
  have hunmet : Document.attributesMet b e = false := by
    rw [Document.attributesMet, Bool.and_eq_false_iff]
    exact .inl (List.all_eq_false.2 ⟨(name, v), hv, by simpa [hthere, attributeMet, hne] using hvalue⟩)
  simp [isMet_eq, hunmet]

end

section

variable {storeOpen : Prop} {expanded stored : Bool} {d s : Element}

theorem Orderly.isWord_tag (he : d.Orderly storeOpen) : isWord d.tag.toList = true := by
  cases he with
  | mk word _ _ _ _ => exact word

/-- Children of a tag whose order does not belong to the declaration differ. -/
theorem Orderly.pairwise_differ (he : d.Orderly storeOpen) {t : String} (ht : t ∉ (Ownership.of d.tag).children) :
    (d.all t).Pairwise Differ := by
  have hapart : d.children.Pairwise (Apart d.tag) := by
    cases he with
    | mk _ _ apart _ _ => exact apart
  have htags : ∀ c ∈ d.all t, c.tag = t := fun c hc => by simpa using (List.mem_filter.1 hc).2
  refine (hapart.sublist List.filter_sublist).imp_of_mem fun hb hc h => ?_
  rcases h ((htags _ hb).trans (htags _ hc).symm) with howned | hdiffer
  · exact absurd (htags _ hb ▸ howned) ht
  · exact hdiffer

/-- **What stands is met.** -/
theorem Stands.isMet (hd : d.Orderly storeOpen) (h : Stands expanded stored d s) : d.isMet s = true := by
  induction h with
  | @mk d s slots level inside ih =>
    have htags : ∀ c e, .declared c e ∈ slots → e.tag = c.tag := fun c e he => (inside c e he).tag_eq
    have hchild : ∀ c e, .declared c e ∈ slots → c ∈ d.children := fun c e he =>
      (level.mem_iff c).1 (Slot.mem_declared?_iff.2 ⟨e, he⟩)
    have hmet : ∀ c e, .declared c e ∈ slots → c.isMet e = true := fun c e he => ih c e he (hd.child (hchild c e he))
    have htext : textMet d s = true := by simp [textMet, level.lead_eq]
    rw [isMet_eq]
    simp only [level.tag_eq, beq_self_eq_true, level.attributesMet, htext, Bool.true_and, List.all_eq_true]
    -- children are compared tag by tag: those of owned tags in their order, the others wherever they stand
    intro t ht
    have hword : isWord t.toList = true := by
      rcases List.mem_append.1 ht with hchildren | howned
      · obtain ⟨c, hc, rfl⟩ := List.mem_map.1 hchildren
        exact (hd.child hc).isWord_tag
      · exact isWord_of_owned t howned
    rw [childrenMet_of_isWord _ _ hword]
    split
    · next howned =>
      have howned : t ∈ (Ownership.of d.tag).children := by simpa using howned
      by_cases hstore : ∃ e, .store e ∈ slots ∧ e.tag = t
      · obtain ⟨e, he, rfl⟩ := hstore
        obtain ⟨hmade, hnone⟩ := level.store e he
        have hnvram : e.tag = "nvram" := by
          simp only [isMadeUp, Bool.and_eq_true, beq_iff_eq] at hmade
          exact hmade.1.2
        rw [hnvram, level.all_store htags he, hnone, hmade]
        rfl
      · have hall : ∀ p ∈ slots, p.there.tag = t → ∃ c e, p = .declared c e ∧ c.isMet e = true := by
          intro p hp htag
          cases p with
          | declared c e => exact ⟨c, e, rfl, hmet c e hp⟩
          | added e => exact absurd (htag ▸ howned) (level.added e hp)
          | store e => exact absurd ⟨e, hp, htag⟩ hstore
        have hplaces := forall₂_of_slots htags hall
        rw [level.order t howned, ← level.children] at hplaces
        exact Bool.or_eq_true_iff.2 (.inr (metInOrder_iff.2 hplaces))
    · next howned =>
      have howned : t ∉ (Ownership.of d.tag).children := by simpa using howned
      have htag : ∀ c ∈ d.all t, c.tag = t := fun c hc => by simpa using (List.mem_filter.1 hc).2
      -- two declared children with this tag differ in something that is compared, so none is met by the partner of another
      have hapart : (d.all t).Pairwise fun b c => ∀ e, .declared c e ∈ slots → b.isMet e = false := by
        refine (hd.pairwise_differ howned).imp_of_mem fun {b c} hb hc hdiffer e he => ?_
        obtain ⟨slots', level', -⟩ := inside c e he
        exact hdiffer.isMet_eq_false ((htag b hb).trans (htag c hc).symm) level'
      refine metAnywhere_of_partners hapart fun c hc => ?_
      obtain ⟨e, he⟩ := Slot.mem_declared?_iff.1 ((level.mem_iff c).2 (List.mem_filter.1 hc).1)
      refine ⟨e, ?_, hmet c e he, he⟩
      rw [all, level.children]
      refine List.mem_filter.2 ⟨List.mem_map_of_mem he, ?_⟩
      simpa [Slot.there, htags c e he] using htag c hc

end

end Element

/-! ### Declarations -/

open Element

/-- What is declared and has a document. -/
inductive Declaration where
  | network (n : Network)
  | pool (p : Pool)
  | domain (d : Domain)

namespace Declaration

/-- The document of a declaration. -/
def document : Declaration → Element
  | network n => n.document
  | pool p => p.document
  | domain d => d.document

/-- The text of the document. -/
def written : Declaration → Except Unwritable String
  | network n => n.written
  | pool p => p.written
  | domain d => d.written

/-- Whether a host makes up the variable store: for firmware that it selects, where no store is named. -/
def LeavesStoreOpen : Declaration → Prop
  | network _ => False
  | pool _ => False
  | domain d => d.firmware = .uefi ∧ Domain.given d.nvram = none

variable {s : Declaration} {text : String}

theorem orderly : (s : Declaration) → s.document.Orderly s.LeavesStoreOpen
  | network n => n.orderly
  | pool p => p.orderly
  | domain d => d.orderly id

theorem render_eq_of_written (h : s.written = .ok text) : s.document.render = .ok text := by
  cases s with
  | network n => exact h
  | pool p => exact h
  | domain d =>
    rw [written, Domain.written] at h
    split at h
    · exact h
    · exact absurd h (by simp)

/-- **Decoration is never drift.** A document of a declaration is met by each document that is read as a decoration of
what is read of it, and by itself. -/
theorem documentsMatch_decorated (h : s.written = .ok text) :
    (∀ live read stored expanded made, Element.read? text = some read → Element.read? live = some stored →
      Decorated s.LeavesStoreOpen expanded made read stored → documentsMatch text live = true) ∧
    documentsMatch text text = true := by
  have hread := s.orderly.framed.read?_render (render_eq_of_written h)
  have horderly := s.orderly.asRead 0
  constructor
  · intro live read stored expanded made hdeclared hlive hdecorated
    obtain rfl := Option.some.inj (hread.symm.trans hdeclared)
    rw [documentsMatch, hdeclared, hlive]
    exact (hdecorated.stands horderly).isMet horderly
  · rw [documentsMatch, hread]
    exact horderly.stands.isMet horderly

/-! ### A decorated guest -/

/-- A guest with firmware that a host selects. -/
def guest : Domain where
  name := "guest"
  identifier := some ⟨1⟩
  memory := ⟨1, .GiB⟩
  machine := "pc"
  firmware := .uefi

/-- The children of the guest before its start, and those behind it. -/
def around : List Element × List Element := (guest.document.children.take 4, guest.document.children.drop 5)

/-- How a guest starts, with a machine and a store. -/
def start (machine : String) (store : List Element) : Element :=
  branch "os" ([leaf "type" "hvm" [("arch", "x86_64"), ("machine", machine)],
      branch "firmware"
        [Element.empty "feature" [("enabled", "yes"), ("name", "secure-boot")],
         Element.empty "feature" [("enabled", "yes"), ("name", "enrolled-keys")]]] ++
    store ++ [Element.empty "boot" [("dev", "hd")]]) [("firmware", "efi")]

/-- The guest as a host stores it: with a number, under the full name of its machine, and with a store that the host
has made up. -/
def storedGuest : Element where
  tag := "domain"
  attributes := [("id", "1"), ("type", "kvm")]
  children := around.1 ++ start "pc-i440fx-9.0" [leaf "nvram" "/var/lib/guest_VARS.fd"] :: around.2

/-- What is read of the guest, with attributes and a start. -/
def readGuest (attributes : List (String × String)) (start : Element) : Element where
  tag := "domain"
  attributes := attributes
  lead := "\n  "
  children := around.1.map (asRead 2) ++ start.asRead 2 :: around.2.map (asRead 2)

theorem storedGuest_decorated :
    Decorated (domain guest).LeavesStoreOpen true true (guest.document.asRead 0) (storedGuest.asRead 0) := by
  have hnumber : Inside Adorns (readGuest [("type", "kvm")] (start "pc" []))
      (readGuest [("id", "1"), ("type", "kvm")] (start "pc" [])) :=
    .here (.give [] [("type", "kvm")] "id" "1" (by decide) (by decide))
  have hmachine : Inside ExpandsMachine (readGuest [("id", "1"), ("type", "kvm")] (start "pc" []))
      (readGuest [("id", "1"), ("type", "kvm")] (start "pc-i440fx-9.0" [])) :=
    .child _ _ (.child [] _ (.here (.mk [("arch", "x86_64")] [] "pc" "pc-i440fx-9.0" (.inr ⟨rfl, "9.0", rfl⟩))))
  have hstore : Inside MakesStore (readGuest [("id", "1"), ("type", "kvm")] (start "pc-i440fx-9.0" []))
      (readGuest [("id", "1"), ("type", "kvm")] (start "pc-i440fx-9.0" [leaf "nvram" "/var/lib/guest_VARS.fd"])) :=
    .child _ _ (.here (.mk [_, _] [_] (leaf "nvram" "/var/lib/guest_VARS.fd") rfl ⟨"/var/lib/guest", rfl⟩))
  exact .store ⟨rfl, rfl⟩ (.machine (.adorn (.refl _) hnumber) hmachine) hstore

theorem framed_guest : guest.document.Framed := (domain guest).orderly.framed

theorem framed_storedGuest : storedGuest.Framed := by
  have hguest : ∀ c ∈ guest.document.children, c.Framed := ((framed_mk_iff ..).1 framed_guest).2.2
  refine .mk (by decide) (by simp +decide) (List.forall_mem_append.2 ⟨fun c hc => hguest c (List.mem_of_mem_take hc),
    List.forall_mem_cons.2 ⟨?_, fun c hc => hguest c (List.mem_of_mem_drop hc)⟩⟩)
  simp +decide [start, branch, leaf, Element.empty]

theorem storedGuest_documentsMatch : ∃ text live, guest.written = .ok text ∧ storedGuest.render = .ok live ∧
    documentsMatch text live = true := by
  have hrender : guest.document.render = .ok guest.document.settle.print := by
    rw [render, if_pos (by decide +kernel)]
  have hwritten : guest.written = .ok guest.document.settle.print := by
    rw [Domain.written, if_pos (Text.isWritable_of_lt (by decide)), hrender]
  have hstored : storedGuest.render = .ok storedGuest.settle.print := by
    rw [render, if_pos (by decide +kernel)]
  exact ⟨_, _, hwritten, hstored, (documentsMatch_decorated (s := domain guest) hwritten).1 _ _ _ _ _
    (framed_guest.read?_render hrender) (framed_storedGuest.read?_render hstored) storedGuest_decorated⟩

end Declaration

end VirtualTopology
