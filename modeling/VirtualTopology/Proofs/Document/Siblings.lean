import VirtualTopology.Proofs.Document.Decoration
import VirtualTopology.Proofs.Document.Exactness

/-!
# The order of siblings

Children whose order does not belong to the declaration are matched as they come: each declared one takes the first
stored one that is left and meets it, and a choice is never taken back. So a declared child may take the only element
that a later one can have, and whether a document matches may depend on the order of the stored children
(`Document.metAnywhere_pair`).

It does not where the declared siblings are graded (`Element.Graded`): if a stored child meets two of them, then
whatever meets the earlier one meets the later one. Then matching as it comes succeeds whenever some assignment of
stored children does (`Document.metAnywhere_iff_assignable`), and the stored document may be rearranged inside any of
its elements (`Element.Graded.isMet_eq`). Documents of declarations are graded, because children with the same tag are
told apart by an attribute, so that no stored child meets two of them (`Element.Orderly.graded`).

The step is an exchange: where an assignment gives the element that was taken to a later child, this one gets the
element that the assignment had for the earlier one (`Document.exists_exchange`).
-/

namespace VirtualTopology

open Document

namespace Document

/-! ### Assignments -/

/-- Whether tests can be given elements of their own, each one that passes it. -/
def Assignable (tests : List (Element → Bool)) (es : List Element) : Prop :=
  ∃ chosen others, es.Perm (chosen ++ others) ∧ List.Forall₂ (fun t e => t e = true) tests chosen

/-- Whether of two tests that share an element, the later one accepts whatever the earlier one does. -/
def AreGraded (tests : List (Element → Bool)) (es : List Element) : Prop :=
  tests.Pairwise fun t u => ∀ e ∈ es, t e = true → u e = true → ∀ f ∈ es, t f = true → u f = true

variable {tests : List (Element → Bool)} {es es' : List Element}

instance : Decidable (AreGraded tests es) :=
  inferInstanceAs (Decidable (tests.Pairwise fun t u =>
    ∀ e ∈ es, t e = true → u e = true → ∀ f ∈ es, t f = true → u f = true))

theorem AreGraded.mono (h : AreGraded tests es) (hes : ∀ e ∈ es', e ∈ es) : AreGraded tests es' :=
  h.imp fun hle e he ht hu f hf => hle e (hes e he) ht hu f (hes f hf)

theorem Assignable.perm (h : Assignable tests es) (hes : es'.Perm es) : Assignable tests es' := by
  obtain ⟨chosen, others, hperm, hpass⟩ := h
  exact ⟨chosen, others, hes.trans hperm, hpass⟩

/-- **What is matched as it comes is an assignment.** -/
theorem assignable_of_metAnywhere (h : metAnywhere tests es = true) : Assignable tests es := by
  induction tests generalizing es with
  | nil => exact ⟨[], es, .rfl, .nil⟩
  | cons t ts ih =>
    rw [metAnywhere] at h
    cases htaken : takeOut? t es with
    | none => simp [htaken] at h
    | some rest =>
      rw [htaken, Option.elim_some] at h
      obtain ⟨e, ht, hperm⟩ := mem_of_takeOut? htaken
      obtain ⟨chosen, others, hrest, hpass⟩ := ih h
      exact ⟨e :: chosen, others, hperm.trans (hrest.cons e), .cons ht hpass⟩

/-- An element that is chosen is exchanged for another one that passes the same test. -/
theorem exists_exchange {ts : List (Element → Bool)} {fs : List Element} {e f : Element}
    (h : List.Forall₂ (fun t e => t e = true) ts fs) (he : e ∈ fs) (hpass : ∀ u ∈ ts, u e = true → u f = true) :
    ∃ gs, (f :: fs).Perm (e :: gs) ∧ List.Forall₂ (fun t e => t e = true) ts gs := by
  induction h with
  | nil => exact absurd he (by simp)
  | @cons t x ts fs ht hrest ih =>
    rcases List.mem_cons.1 he with rfl | he
    · exact ⟨f :: fs, .swap e f fs, .cons (hpass t (by simp) ht) hrest⟩
    · obtain ⟨gs, hperm, hgs⟩ := ih he fun u hu => hpass u (by simp [hu])
      refine ⟨x :: gs, ?_, .cons ht hgs⟩
      calc (f :: x :: fs).Perm (x :: f :: fs) := .swap x f fs
        _ |>.Perm (x :: e :: gs) := hperm.cons x
        _ |>.Perm (e :: x :: gs) := .swap e x gs

/-- **An assignment is found as it comes**, if the tests are graded. -/
theorem metAnywhere_of_assignable (hgraded : AreGraded tests es) (h : Assignable tests es) :
    metAnywhere tests es = true := by
  induction tests generalizing es with
  | nil => rfl
  | cons t ts ih =>
    obtain ⟨chosen, others, hperm, hpass⟩ := h
    cases hpass with
    | @cons _ f _ fs hf hfs =>
      have hfmem : f ∈ es := hperm.mem_iff.2 (by simp)
      obtain ⟨rest, htaken⟩ := Option.isSome_iff_exists.1 (isSome_takeOut? hfmem hf)
      obtain ⟨e, he, htaken'⟩ := mem_of_takeOut? htaken
      have hemem : e ∈ es := htaken'.mem_iff.2 (by simp)
      obtain ⟨hfirst, hlater⟩ := List.pairwise_cons.1 hgraded
      have hrest : AreGraded ts rest := AreGraded.mono hlater fun x hx => htaken'.mem_iff.2 (by simp [hx])
      have hboth : (e :: rest).Perm (f :: (fs ++ others)) := htaken'.symm.trans hperm
      rw [metAnywhere, htaken, Option.elim_some]
      refine ih hrest ?_
      rcases List.mem_cons.1 (hboth.mem_iff.1 List.mem_cons_self) with rfl | hmem
      · exact ⟨fs, others, hboth.cons_inv, hfs⟩
      · rcases List.mem_append.1 hmem with hin | hout
        · -- a later test had the element that is taken; it gets the one that was meant for this test
          obtain ⟨gs, hgs, hpass⟩ := exists_exchange hfs hin fun u hu hue => hfirst u hu e hemem he hue f hfmem hf
          exact ⟨gs, others, (hboth.trans (hgs.append_right others)).cons_inv, hpass⟩
        · obtain ⟨front, back, rfl⟩ := List.append_of_mem hout
          refine ⟨fs, f :: (front ++ back), (hboth.trans ?_).cons_inv, hfs⟩
          calc (f :: (fs ++ (front ++ e :: back))).Perm (f :: e :: (fs ++ (front ++ back))) := by
                rw [← List.append_assoc, ← List.append_assoc]
                exact List.perm_middle.cons f
            _ |>.Perm (e :: f :: (fs ++ (front ++ back))) := .swap e f _
            _ |>.Perm (e :: (fs ++ f :: (front ++ back))) := List.perm_middle.symm.cons e

/-- **Matching as it comes succeeds exactly if an assignment exists**, where the tests are graded. -/
theorem metAnywhere_iff_assignable (h : AreGraded tests es) : metAnywhere tests es = true ↔ Assignable tests es :=
  ⟨assignable_of_metAnywhere, metAnywhere_of_assignable h⟩

/-- So the order of the elements has no part in it. -/
theorem metAnywhere_perm (h : AreGraded tests es) (hes : es'.Perm es) :
    metAnywhere tests es' = metAnywhere tests es := by
  rw [Bool.eq_iff_iff, metAnywhere_iff_assignable h,
    metAnywhere_iff_assignable (h.mono fun e he => hes.mem_iff.1 he)]
  exact ⟨fun ha => ha.perm hes.symm, fun ha => ha.perm hes⟩

/-- **Where tests are not graded the order decides**: of two elements that pass the earlier test and one that passes the
later one too, the earlier test takes the one that comes first. -/
theorem metAnywhere_pair {t u : Element → Bool} {e f : Element} (hte : t e = true) (hue : u e = true)
    (htf : t f = true) (huf : u f = false) :
    metAnywhere [t, u] [e, f] = false ∧ metAnywhere [t, u] [f, e] = true := by
  simp [metAnywhere, takeOut?, hte, hue, htf, huf]

/-! ### Elements that are alike -/

/-- Whether two elements pass the same of some tests. -/
def AlikeFor (tests : List (Element → Bool)) (e e' : Element) : Prop := ∀ t ∈ tests, t e' = t e

theorem takeOut?_congr {t : Element → Bool} (ht : t ∈ tests) (h : List.Forall₂ (AlikeFor tests) es es') :
    Option.Rel (List.Forall₂ (AlikeFor tests)) (takeOut? t es) (takeOut? t es') := by
  induction h with
  | nil => exact .none
  | @cons e e' es es' he hrest ih =>
    rw [takeOut?, takeOut?, he t ht]
    split
    · exact .some hrest
    · generalize takeOut? t es = x at ih
      generalize takeOut? t es' = y at ih
      cases ih with
      | none => exact .none
      | some hrest => exact .some (.cons he hrest)

theorem metAnywhere_congr (h : List.Forall₂ (AlikeFor tests) es es') :
    metAnywhere tests es' = metAnywhere tests es := by
  induction tests generalizing es es' with
  | nil => rfl
  | cons t ts ih =>
    have htaken := takeOut?_congr (List.mem_cons_self (a := t) (l := ts)) h
    rw [metAnywhere, metAnywhere]
    generalize takeOut? t es = x at htaken
    generalize takeOut? t es' = y at htaken
    cases htaken with
    | none => rfl
    | some hrest => exact ih (hrest.imp fun _ _ he u hu => he u (List.mem_cons_of_mem t hu))

theorem metInOrder_congr (h : List.Forall₂ (AlikeFor tests) es es') : metInOrder tests es' = metInOrder tests es := by
  induction tests generalizing es es' with
  | nil => cases h <;> rfl
  | cons t ts ih =>
    cases h with
    | nil => rfl
    | cons he hrest =>
      rw [metInOrder, metInOrder, he t List.mem_cons_self,
        ih (hrest.imp fun _ _ he u hu => he u (List.mem_cons_of_mem t hu))]

/-! ### Tag by tag -/

theorem takeOut?_filter {test p : Element → Bool} (hp : ∀ e, test e = true → p e = true) (es : List Element) :
    takeOut? test (es.filter p) = (takeOut? test es).map (List.filter p) := by
  induction es with
  | nil => rfl
  | cons e es ih =>
    by_cases htest : test e = true
    · rw [List.filter_cons_of_pos (hp e htest), takeOut?, takeOut?, if_pos htest, if_pos htest, Option.map_some]
    · rw [List.filter_cons, takeOut?, if_neg htest, Option.map_map]
      split
      · next hkept =>
        rw [takeOut?, if_neg htest, ih, Option.map_map]
        congr 1
        funext rest
        simp [hkept]
      · next hdropped =>
        rw [ih]
        congr 1
        funext rest
        simp [hdropped]

theorem filter_of_takeOut? {test q : Element → Bool} (hq : ∀ e, test e = true → q e = false) {es rest : List Element}
    (h : takeOut? test es = some rest) : rest.filter q = es.filter q := by
  induction es generalizing rest with
  | nil => exact nomatch h
  | cons e es ih =>
    rw [takeOut?] at h
    split at h
    · next htest =>
      obtain rfl := Option.some.inj h
      rw [List.filter_cons_of_neg (by simp [hq e htest])]
    · obtain ⟨rest, hrest, rfl⟩ := Option.map_eq_some_iff.1 h
      rw [List.filter_cons, List.filter_cons, ih hrest]

theorem filter_covers (t u : String) (es : List Element) :
    (es.filter (covers t ·.tag)).filter (·.tag == u) = if covers t u then es.filter (·.tag == u) else [] := by
  rw [List.filter_filter]
  split
  · next hcovered =>
    refine List.filter_congr fun e _ => ?_
    by_cases htag : e.tag = u
    · simp [htag, hcovered]
    · simp [htag]
  · next hbare =>
    refine List.filter_eq_nil_iff.2 fun e _ h => hbare ?_
    rw [Bool.and_eq_true, beq_iff_eq] at h
    exact h.1 ▸ h.2

end Document

namespace Element

theorem tag_eq_of_isMet {d s : Element} (h : d.isMet s = true) : d.tag = s.tag := by
  rw [isMet_eq] at h
  simp only [Bool.and_eq_true, beq_iff_eq] at h
  exact h.1.1.1

/-- **Elements are matched tag by tag**, also those that are matched as they come. -/
theorem metAnywhere_iff_forall_tag (ds es : List Element) : metAnywhere (ds.map isMet) es = true ↔
    ∀ u, metAnywhere ((ds.filter (·.tag == u)).map isMet) (es.filter (·.tag == u)) = true := by
  induction ds generalizing es with
  | nil => simp [metAnywhere]
  | cons d ds ih =>
    have hown : takeOut? d.isMet (es.filter (·.tag == d.tag)) =
        (takeOut? d.isMet es).map (List.filter (·.tag == d.tag)) :=
      takeOut?_filter (fun e he => by simpa using (tag_eq_of_isMet he).symm) es
    have hfirst : ((d :: ds).filter (·.tag == d.tag)) = d :: ds.filter (·.tag == d.tag) :=
      List.filter_cons_of_pos (by simp)
    rw [List.map_cons, metAnywhere]
    cases htaken : takeOut? d.isMet es with
    | none =>
      refine iff_of_false (by simp) fun h => ?_
      have hnone := h d.tag
      rw [hfirst, List.map_cons, metAnywhere, hown, htaken] at hnone
      exact absurd hnone (by simp)
    | some rest =>
      rw [Option.elim_some, ih]
      refine forall_congr' fun u => ?_
      by_cases hu : d.tag = u
      · subst hu
        rw [hfirst, List.map_cons, metAnywhere, hown, htaken, Option.map_some, Option.elim_some]
      · have hothers : rest.filter (·.tag == u) = es.filter (·.tag == u) :=
          filter_of_takeOut? (fun e he => by simpa [tag_eq_of_isMet he] using hu) htaken
        rw [hothers, List.filter_cons_of_neg (by simpa using hu)]

/-! ### Rearranging -/

/-- Whether an element is another one with its children in another order, at any depth. Children of one tag that belong
to the declaration stay in their order. -/
inductive Rearranged : Element → Element → Prop where
  | mk {tag lead : String} {attributes : List (String × String)} {cs ds es : List Element} (perm : cs.Perm ds)
      (order : ∀ t ∈ (Ownership.of tag).children, cs.filter (·.tag == t) = ds.filter (·.tag == t))
      (inside : List.Forall₂ Rearranged ds es) :
      Rearranged { tag, attributes, lead, children := cs } { tag, attributes, lead, children := es }

theorem Rearranged.refl : (e : Element) → e.Rearranged e
  | { children, .. } => .mk .rfl (fun _ _ => rfl) (List.forall₂_same.2 fun c _ => Rearranged.refl c)

theorem Rearranged.tag_eq {e e' : Element} (h : e.Rearranged e') : e'.tag = e.tag := by
  cases h
  rfl

theorem Rearranged.lead_eq {e e' : Element} (h : e.Rearranged e') : e'.lead = e.lead := by
  cases h
  rfl

/-- Whether declared siblings are graded by the stored ones, at any depth: of two that a stored one meets both,
unless their order belongs to the declaration, the later one is met by whatever meets the earlier one. -/
inductive Graded : Element → Element → Prop where
  | mk {d s : Element}
      (siblings : ∀ t ∉ (Ownership.of d.tag).children, AreGraded ((d.all t).map isMet) (s.all t))
      (inside : ∀ c ∈ d.children, ∀ e ∈ s.children, c.tag = e.tag → Graded c e) : Graded d s

/-- Those with a tag are rearranged as well. -/
theorem forall₂_filter_rearranged {ds es : List Element} (h : List.Forall₂ Rearranged ds es) (t : String) :
    List.Forall₂ (fun e e' => e ∈ ds ∧ e.tag = t ∧ e.Rearranged e') (ds.filter (·.tag == t))
      (es.filter (·.tag == t)) := by
  induction h with
  | nil => exact .nil
  | @cons d e ds es hde _ ih =>
    have hrest := ih.imp fun _ _ he => And.imp_left (List.mem_cons_of_mem d) he
    rw [List.filter_cons, List.filter_cons, hde.tag_eq]
    split
    · next htag => exact .cons ⟨List.mem_cons_self, beq_iff_eq.1 htag, hde⟩ hrest
    · exact hrest

theorem isMadeUp_congr (d : Element) {es es' : List Element} (h : List.Forall₂ Rearranged es es') :
    isMadeUp d es' = isMadeUp d es := by
  cases h with
  | nil => rfl
  | cons he hrest =>
    cases hrest with
    | nil => simp only [isMadeUp, he.tag_eq, he.lead_eq]
    | cons _ _ => rfl

section

variable {d : Element} {tag lead : String} {attributes : List (String × String)} {cs ds es : List Element}

/-- Stored children are alike for the declared ones with their tag, if these meet them in their new form as in the old
one. -/
theorem forall₂_alikeFor (inside : List.Forall₂ Rearranged ds es)
    (hmet : ∀ c ∈ d.children, ∀ e ∈ ds, ∀ e', c.tag = e.tag → e.Rearranged e' → c.isMet e' = c.isMet e) (t : String) :
    List.Forall₂ (AlikeFor ((d.all t).map isMet)) (ds.filter (·.tag == t)) (es.filter (·.tag == t)) := by
  refine (forall₂_filter_rearranged inside t).imp fun e e' ⟨he, htag, hee'⟩ => ?_
  refine List.forall_mem_map.2 fun c hc => ?_
  obtain ⟨hchild, hctag⟩ := List.mem_filter.1 hc
  exact hmet c hchild e he e' ((beq_iff_eq.1 hctag).trans htag.symm) hee'

/-- Children that belong to the declaration are met in their order, which a rearrangement keeps. -/
theorem childrenMet_rearranged_of_owned (inside : List.Forall₂ Rearranged ds es)
    (hmet : ∀ c ∈ d.children, ∀ e ∈ ds, ∀ e', c.tag = e.tag → e.Rearranged e' → c.isMet e' = c.isMet e)
    (order : ∀ t ∈ (Ownership.of d.tag).children, cs.filter (·.tag == t) = ds.filter (·.tag == t)) {t : String}
    (ht : t ∈ (Ownership.of d.tag).children) :
    childrenMet d { tag, attributes, lead, children := es } (d.children.map fun c => (c.tag, c.isMet)) t =
      childrenMet d { tag, attributes, lead, children := cs } (d.children.map fun c => (c.tag, c.isMet)) t := by
  have hword := isWord_of_owned t ht
  have howned : (Ownership.of d.tag).children.contains t = true := by simpa using ht
  have hmade : isMadeUp d (es.filter (·.tag == t)) = isMadeUp d (cs.filter (·.tag == t)) := by
    rw [order t ht]
    exact isMadeUp_congr d ((forall₂_filter_rearranged inside t).imp fun _ _ he => he.2.2)
  have hinOrder : metInOrder ((d.all t).map isMet) (es.filter (·.tag == t)) =
      metInOrder ((d.all t).map isMet) (cs.filter (·.tag == t)) := by
    rw [order t ht]
    exact metInOrder_congr (forall₂_alikeFor inside hmet t)
  rw [childrenMet_of_isWord _ _ hword, childrenMet_of_isWord _ _ hword, if_pos howned, if_pos howned]
  exact congr_arg₂ (fun made met => ((d.all t).isEmpty && made) || met) hmade hinOrder

/-- The others are met tag by tag: where a tag belongs to the declaration by their order, and otherwise because they
are graded. -/
theorem childrenMet_rearranged_of_not_owned (inside : List.Forall₂ Rearranged ds es)
    (hmet : ∀ c ∈ d.children, ∀ e ∈ ds, ∀ e', c.tag = e.tag → e.Rearranged e' → c.isMet e' = c.isMet e)
    (order : ∀ t ∈ (Ownership.of d.tag).children, cs.filter (·.tag == t) = ds.filter (·.tag == t)) (perm : cs.Perm ds)
    (siblings : ∀ t ∉ (Ownership.of d.tag).children, AreGraded ((d.all t).map isMet) (cs.filter (·.tag == t)))
    {t : String} (ht : t ∉ (Ownership.of d.tag).children) :
    childrenMet d { tag, attributes, lead, children := es } (d.children.map fun c => (c.tag, c.isMet)) t =
      childrenMet d { tag, attributes, lead, children := cs } (d.children.map fun c => (c.tag, c.isMet)) t := by
  have hwanted : ((d.children.map fun c => (c.tag, c.isMet)).filter (covers t ·.1)).map (·.2)
      = (d.children.filter (covers t ·.tag)).map isMet := by
    rw [List.filter_map, List.map_map]
    rfl
  have hfree : (Ownership.of d.tag).children.contains t = false := by simpa using ht
  simp only [childrenMet, hwanted, hfree]
  rw [Bool.eq_iff_iff, if_neg Bool.false_ne_true, if_neg Bool.false_ne_true, metAnywhere_iff_forall_tag,
    metAnywhere_iff_forall_tag]
  refine forall_congr' fun u => ?_
  rw [filter_covers, filter_covers, filter_covers]
  split
  · have hsame : metAnywhere ((d.all u).map isMet) (ds.filter (·.tag == u)) =
        metAnywhere ((d.all u).map isMet) (cs.filter (·.tag == u)) := by
      by_cases hu : u ∈ (Ownership.of d.tag).children
      · rw [order u hu]
      · exact metAnywhere_perm (siblings u hu) (perm.symm.filter _)
    rw [← all, metAnywhere_congr (forall₂_alikeFor inside hmet u), hsame]
  · rfl

end

/-- **The order of siblings is irrelevant** where the declared ones are graded. -/
theorem Graded.isMet_eq {d s s' : Element} (h : d.Graded s) (hs : s.Rearranged s') : d.isMet s' = d.isMet s := by
  induction h generalizing s' with
  | @mk d s siblings _ ih =>
    by_cases htag : d.tag = s.tag
    · cases hs with
      | @mk tag lead attributes cs ds es perm order inside =>
        obtain rfl : d.tag = tag := htag
        have hmet : ∀ c ∈ d.children, ∀ e ∈ ds, ∀ e', c.tag = e.tag → e.Rearranged e' → c.isMet e' = c.isMet e :=
          fun c hc e he e' hce hee' => ih c hc e (perm.mem_iff.2 he) hce hee'
        have hchildren : childrenMet d ⟨d.tag, attributes, lead, es⟩ (d.children.map fun c => (c.tag, c.isMet)) =
            childrenMet d ⟨d.tag, attributes, lead, cs⟩ (d.children.map fun c => (c.tag, c.isMet)) := by
          funext t
          by_cases ht : t ∈ (Ownership.of d.tag).children
          · exact childrenMet_rearranged_of_owned inside hmet order ht
          · exact childrenMet_rearranged_of_not_owned inside hmet order perm siblings ht
        rw [Element.isMet_eq, Element.isMet_eq, hchildren]
        rfl
    · have hfalse : ∀ e, e.tag = s.tag → d.isMet e = false := fun e he =>
        Bool.eq_false_iff.2 fun hmet => htag ((tag_eq_of_isMet hmet).trans he)
      rw [hfalse s' hs.tag_eq, hfalse s rfl]

/-! ### Orderly elements -/

/-- An attribute other than that of a machine is the same where an element is met. -/
theorem attribute?_of_isMet {d s : Element} (h : d.isMet s = true) (htag : d.tag ≠ "type") {name value : String}
    (ha : (name, value) ∈ d.attributes) : s.attribute? name = some value := by
  rw [isMet_eq] at h
  simp only [Bool.and_eq_true, attributesMet, List.all_eq_true] at h
  have hmet := h.1.1.2.1 (name, value) ha
  cases hs : s.attribute? name with
  | none => simp [hs, attributeMet] at hmet
  | some w =>
    have hvalue : value = w := by simpa [hs, attributeMet, htag] using hmet
    rw [hvalue]

/-- No element meets two that an attribute tells apart. -/
theorem Differ.not_isMet {b c e : Element} (h : b.Differ c) (hb : b.isMet e = true) : c.isMet e = false := by
  obtain ⟨hne, name, v, w, hv, hw, hvw⟩ := h
  refine Bool.eq_false_iff.2 fun hc => hvw ?_
  have htag : c.tag ≠ "type" := fun htype => hne ((tag_eq_of_isMet hb).trans ((tag_eq_of_isMet hc).symm.trans htype))
  have hvalues := (attribute?_of_isMet hb hne hv).symm.trans (attribute?_of_isMet hc htag hw)
  exact congrArg shown (Option.some.inj hvalues)

/-- **The children of an orderly element are graded**, by whatever is stored: none of it meets two of them. -/
theorem Orderly.graded {storeOpen : Prop} {d : Element} (hd : d.Orderly storeOpen) (s : Element) : d.Graded s := by
  induction hd generalizing s with
  | @mk tag attributes lead children word legible apart store inside ih =>
    have hd : Orderly storeOpen { tag, attributes, lead, children } := .mk word legible apart store inside
    refine .mk (fun t ht => List.pairwise_map.2 ((hd.pairwise_differ ht).imp ?_)) fun c hc e _ _ => ih c hc e
    intro b c hdiffer e _ hb hc
    exact absurd hc (Bool.eq_false_iff.1 (hdiffer.not_isMet hb))

end Element

/-! ### Documents -/

open Element

/-- **The order of siblings and documents**: a stored document may be rearranged without any effect on whether it meets
a declared one, if the children of this one are graded, and so in any case if it is the document of a declaration. What
is matched as it comes is an assignment, and where tests are graded an assignment is always found. -/
theorem documentsMatch_rearranged {declared live live' : String} {d s s' : Element}
    (hdeclared : Element.read? declared = some d) (hlive : Element.read? live = some s)
    (hlive' : Element.read? live' = some s') (hrearranged : s.Rearranged s') :
    (d.Graded s → documentsMatch declared live' = documentsMatch declared live) ∧
    (∀ a : Declaration, a.written = .ok declared → documentsMatch declared live' = documentsMatch declared live) ∧
    ∀ tests es, (metAnywhere tests es = true → Assignable tests es) ∧
      (AreGraded tests es → Assignable tests es → metAnywhere tests es = true) := by
  have hgraded : d.Graded s → documentsMatch declared live' = documentsMatch declared live := by
    intro h
    rw [documentsMatch, documentsMatch, hdeclared, hlive, hlive']
    exact h.isMet_eq hrearranged
  refine ⟨hgraded, fun a ha => hgraded ?_, fun tests es => ⟨assignable_of_metAnywhere, metAnywhere_of_assignable⟩⟩
  have hread := a.orderly.framed.read?_render (Declaration.render_eq_of_written ha)
  obtain rfl := Option.some.inj (hread.symm.trans hdeclared)
  exact (a.orderly.asRead 0).graded s

/-- Devices with controllers only, some of which have a number. -/
def controllers (numbers : List (Option Nat)) : Element :=
  branch "devices" (numbers.map fun number => .empty "controller" (number.map fun n => ("index", toString n)).toList)

/-- What is read of the devices. -/
def readControllers (numbers : List (Option Nat)) : Element := (controllers numbers).readBack 0

theorem read?_controllers (numbers : List (Option Nat)) :
    Element.read? (controllers numbers).print = some (readControllers numbers) := by
  refine Legible.read?_print (.mk (by decide) (by simp) (by simp) (by decide) ?_)
  refine List.forall_mem_map.2 fun number _ => ?_
  cases number with
  | none => exact .mk (by decide) (by simp) (by simp) (by decide) (by simp)
  | some n =>
    have hnumber : IsSettled (toString n) := by
      rw [← String.ofList_toList (s := toString n)]
      exact isSettled_of_isVisible (isVisible_repr n)
    exact .mk (by decide) (by simp +decide) (List.forall_mem_singleton.2 hnumber) (by decide) (by simp)

/-- Everything inside is a controller, in which there is nothing. -/
theorem mem_readControllers {numbers : List (Option Nat)} {c : Element} (hc : c ∈ (readControllers numbers).children) :
    c.tag = "controller" ∧ c.children = [] := by
  rw [readControllers, children_readBack] at hc
  obtain ⟨e, he, rfl⟩ := List.mem_map.1 hc
  obtain ⟨number, -, rfl⟩ := List.mem_map.1 he
  exact ⟨rfl, rfl⟩

theorem all_readControllers (numbers : List (Option Nat)) {t : String} (ht : t ≠ "controller") :
    (readControllers numbers).all t = [] :=
  List.filter_eq_nil_iff.2 fun _ hc htag => ht ((beq_iff_eq.1 htag).symm.trans (mem_readControllers hc).1)

theorem rearranged_controllers (m n : Option Nat) : (readControllers [m, n]).Rearranged (readControllers [n, m]) := by
  refine .mk (.swap _ _ _) (fun t ht => ?_) (List.forall₂_same.2 fun c _ => .refl c)
  have hother : t ≠ "controller" := fun h => absurd (h ▸ ht) (by decide)
  exact (all_readControllers [m, n] hother).trans (all_readControllers [n, m] hother).symm

theorem graded_controllers {declared stored : List (Option Nat)}
    (h : AreGraded (((readControllers declared).all "controller").map isMet)
      ((readControllers stored).all "controller")) : (readControllers declared).Graded (readControllers stored) := by
  refine .mk (fun t _ => ?_) fun c hc e _ _ => .mk (fun _ _ => ?_) fun b hb => ?_
  · by_cases ht : t = "controller"
    · exact ht ▸ h
    · rw [all_readControllers declared ht]
      exact .nil
  · rw [all, (mem_readControllers hc).2]
    exact .nil
  · rw [(mem_readControllers hc).2] at hb
    exact absurd hb (by simp)

/-- The document of the pool, from its last part to its first. -/
def reversedPool : Element := { Pool.inDirectory.document with children := Pool.inDirectory.document.children.reverse }

theorem legible_reversedPool : reversedPool.Legible := by
  obtain ⟨hword, hattributes, hvalues, hlead, hchildren⟩ := (legible_mk_iff ..).1
    (Pool.legible (p := .inDirectory) (by decide))
  exact .mk hword hattributes hvalues hlead fun c hc => hchildren c (List.mem_reverse.1 hc)

/-- A controller with a number and then any other one are graded, and find both stored ones in either order; so do the
parts of a pool. -/
theorem documentsMatch_rearranged_controllers :
    documentsMatch (controllers [some 1, none]).print (controllers [some 0, some 1]).print = true ∧
      ∃ text, Pool.inDirectory.written = .ok text ∧ documentsMatch text reversedPool.print = true := by
  have hgraded : (readControllers [some 1, none]).Graded (readControllers [some 1, some 0]) :=
    graded_controllers (by decide)
  have hmatch : documentsMatch (controllers [some 1, none]).print (controllers [some 1, some 0]).print = true := by
    rw [documentsMatch, read?_controllers, read?_controllers]
    decide
  have hpool := Pool.legible (p := .inDirectory) (by decide)
  have hwritten : Pool.inDirectory.written = .ok Pool.inDirectory.document.print := Pool.written_eq (by decide)
  have hrearranged : (Pool.inDirectory.document.readBack 0).Rearranged (reversedPool.readBack 0) :=
    .mk (List.reverse_perm _).symm (fun _ ht => absurd ht List.not_mem_nil)
      (List.forall₂_same.2 fun c _ => Rearranged.refl c)
  constructor
  · exact ((documentsMatch_rearranged (read?_controllers _) (read?_controllers _) (read?_controllers _)
      (rearranged_controllers (some 1) (some 0))).1 hgraded).trans hmatch
  · exact ⟨_, hwritten, ((documentsMatch_rearranged hpool.read?_print hpool.read?_print
      legible_reversedPool.read?_print hrearranged).2.1 (.pool .inDirectory) hwritten).trans hpool.documentsMatch_print⟩

/-- **A choice is never taken back**: any declared controller takes the only stored one that the next one could have,
unless another one comes before it. -/
theorem not_documentsMatch_rearranged :
    (readControllers [some 1, some 0]).Rearranged (readControllers [some 0, some 1]) ∧
      Assignable (((readControllers [none, some 1]).all "controller").map isMet)
        ((readControllers [some 1, some 0]).all "controller") ∧
      documentsMatch (controllers [none, some 1]).print (controllers [some 1, some 0]).print = false ∧
      documentsMatch (controllers [none, some 1]).print (controllers [some 0, some 1]).print = true := by
  refine ⟨rearranged_controllers _ _, ?_, ?_, ?_⟩
  · refine ⟨(readControllers [some 0, some 1]).all "controller", [], ?_, ?_⟩
    · rw [List.append_nil]
      exact .swap _ _ _
    · exact .cons (by decide) (.cons (by decide) .nil)
  · rw [documentsMatch, read?_controllers, read?_controllers]
    decide
  · rw [documentsMatch, read?_controllers, read?_controllers]
    decide

end VirtualTopology
