import Mathlib.Data.List.Forall2
import VirtualTopology.Proofs.Data.Mapping
import VirtualTopology.Proofs.Data.Settling
import VirtualTopology.Topology.Loading

/-!
# Items of the list of domains

Each item of a topology that manages domains stands for one domain, whatever stands beside it
(`DomainItem.Gives`): an item that names a profile stands for the domain that the profile is expanded to, and every other
item for the domain whose data it is.

`Topology.managing` puts a list of items into a topology. Such a topology is loaded if and only if each of its items
gives a domain and the topology without any items is loaded (`Topology.load_managing_iff`). The networks and the pools are
those without items, and a list of items in two parts is loaded part by part (`Topology.load_append`).
-/

namespace VirtualTopology

open Reading

/-! ### One item after the other -/

/-- A list is gone through without an error if and only if each of its members is. -/
theorem Except.mapM_eq_ok_iff {ε α β : Type} {f : α → Except ε β} {xs : List α} {ys : List β} :
    xs.mapM f = .ok ys ↔ List.Forall₂ (fun x y => f x = .ok y) xs ys := by
  induction xs generalizing ys with
  | nil => cases ys <;> simp [pure, Except.pure]
  | cons x xs ih =>
    rw [List.mapM_cons, List.forall₂_cons_left_iff]
    cases hx : f x with
    | error e => simp [bind, Except.bind]
    | ok y =>
      simp only [← ih]
      cases hxs : xs.mapM f with
      | error e => simp [bind, Except.bind]
      | ok rest => simp [bind, Except.bind, pure, Except.pure, eq_comm]

namespace DomainItem

theorem readAll_eq_valid_iff {place : Nat} {is : List DomainItem} {xs : List Domain} :
    readAll place is = .valid xs ↔ List.Forall₂ (fun i x => i.read = .valid x) is xs := by
  induction is generalizing place xs with
  | nil => cases xs <;> simp [readAll]
  | cons i is ih =>
    simp only [readAll, Checked.seq_eq_valid_iff, Checked.map_eq_valid_iff, Checked.under_eq_valid_iff, ih,
      List.forall₂_cons_left_iff]
    constructor
    · rintro ⟨_, rest, ⟨x, hx, rfl⟩, hrest, rfl⟩
      exact ⟨x, rest, hx, hrest, rfl⟩
    · rintro ⟨x, rest, hx, hrest, rfl⟩
      exact ⟨_, rest, ⟨x, hx, rfl⟩, hrest, rfl⟩

variable {s : GuestSettings} {d : Data} {x : Domain}

/-- The domain that an item stands for. -/
inductive Gives (s : GuestSettings) (d : Data) : Domain → Prop where
  /-- The keys of the item, but for the profile, are the parameters for which the profile is expanded. -/
  | expanded {m : Mapping} {profile : Data} {parameters : GuestParameters} {x : Domain}
      (mapping : d.untied = .mapping m) (named : m.at? "profile" = some profile)
      (parametrised : GuestParameters.reading (.mapping (m.without "profile")) = .valid parameters)
      (expands : s.expand profile parameters = .ok x) : Gives s d x
  /-- The item names no profile. -/
  | plain {x : Domain} (unnamed : ∀ m : Mapping, d.untied = .mapping m → m.at? "profile" = none)
      (reads : Domain.reading d = .valid x) : Gives s d x

/-- An item that names no profile is left alone. -/
theorem of_plain (h : ∀ m : Mapping, d.untied = .mapping m → m.at? "profile" = none) : of s d = .ok (.plain d) := by
  unfold of
  split
  · next m hm =>
    rw [h m hm]
  · rfl

/-- An item that names a profile is refused if its other keys are no parameters. -/
theorem of_refused {m : Mapping} {profile : Data} {faults : List Fault} (hm : d.untied = .mapping m)
    (hprofile : m.at? "profile" = some profile)
    (h : GuestParameters.reading (.mapping (m.without "profile")) = .invalid faults) :
    of s d = .error (invalidParameters profile ⟨"ProfileParams", faults⟩) := by
  unfold of
  rw [hm]
  dsimp only
  rw [hprofile]
  dsimp only
  rw [h]
  rfl

/-- An item that names a profile is expanded for its parameters. -/
theorem of_parametrised {m : Mapping} {profile : Data} {parameters : GuestParameters} (hm : d.untied = .mapping m)
    (hprofile : m.at? "profile" = some profile)
    (h : GuestParameters.reading (.mapping (m.without "profile")) = .valid parameters) :
    of s d = expanded <$> (s.expand profile parameters).mapError .expansion := by
  unfold of
  rw [hm]
  dsimp only
  rw [hprofile]
  dsimp only
  rw [h]
  rfl

/-- An item names a profile, or it does not. -/
theorem named_or_plain (d : Data) : (∃ (m : Mapping) (profile : Data), d.untied = .mapping m ∧ m.at? "profile" = some profile) ∨
    ∀ m : Mapping, d.untied = .mapping m → m.at? "profile" = none := by
  refine or_iff_not_imp_left.2 fun hnamed m hm => Option.eq_none_iff_forall_ne_some.2 fun profile hprofile => ?_
  exact hnamed ⟨m, profile, hm, hprofile⟩

theorem gives_iff : Gives s d x ↔ ∃ i, of s d = .ok i ∧ i.read = .valid x := by
  constructor
  · rintro (⟨hm, hprofile, hparameters, hexpand⟩ | ⟨hplain, hread⟩)
    · refine ⟨.expanded x, ?_, rfl⟩
      rw [of_parametrised hm hprofile hparameters, hexpand]
      rfl
    · exact ⟨_, of_plain hplain, hread⟩
  · rintro ⟨i, hi, hread⟩
    rcases named_or_plain d with ⟨m, profile, hm, hprofile⟩ | hplain
    · cases hparameters : GuestParameters.reading (.mapping (m.without "profile")) with
      | invalid faults => exact nomatch (of_refused hm hprofile hparameters).symm.trans hi
      | valid parameters =>
        rw [of_parametrised hm hprofile hparameters] at hi
        cases hexpand : s.expand profile parameters with
        | error e => rw [hexpand] at hi; exact nomatch hi
        | ok y =>
          rw [hexpand] at hi
          obtain rfl := Except.ok.inj hi
          obtain rfl := Checked.valid.inj hread
          exact .expanded hm hprofile hparameters hexpand
    · obtain rfl := Except.ok.inj ((of_plain hplain).symm.trans hi)
      exact .plain hplain hread

/-- An item stands for one domain. -/
theorem gives_rightUnique (s : GuestSettings) : Relator.RightUnique (Gives s) := by
  intro d x y hx hy
  obtain ⟨i, hof, hread⟩ := gives_iff.1 hx
  obtain ⟨j, hof', hread'⟩ := gives_iff.1 hy
  obtain rfl := Except.ok.inj (hof.symm.trans hof')
  exact Checked.valid.inj (hread.symm.trans hread')

/-- **Items are prepared and read one by one.** -/
theorem forall₂_gives_iff {ds : List Data} {xs : List Domain} :
    List.Forall₂ (Gives s) ds xs ↔ ∃ is, ds.mapM (of s) = .ok is ∧ readAll 0 is = .valid xs := by
  simp only [Except.mapM_eq_ok_iff, readAll_eq_valid_iff]
  constructor
  · intro h
    induction h with
    | nil => exact ⟨[], .nil, .nil⟩
    | cons hgives _ ih =>
      obtain ⟨i, hof, hread⟩ := gives_iff.1 hgives
      obtain ⟨is, hofs, hreads⟩ := ih
      exact ⟨i :: is, .cons hof hofs, .cons hread hreads⟩
  · rintro ⟨is, hofs, hreads⟩
    induction hofs generalizing xs with
    | nil =>
      cases hreads
      exact .nil
    | cons hof _ ih =>
      cases hreads with
      | cons hread hreads => exact .cons (gives_iff.2 ⟨_, hof, hread⟩) (ih hreads)

end DomainItem

/-! ### Lists of items in a topology -/

namespace Topology

variable {s : GuestSettings} {rest : Mapping} {items : List Data} {d : Desired}

/-- A topology that manages domains with some items, with the other kinds as in `rest`. -/
def managing (rest : Mapping) (items : List Data) : Data :=
  .mapping (rest.put (.text "domains") (.record [("mode", .text "managed"), ("items", .list items)]))

/-- What a topology says about networks and pools, if its keys are those of a topology. -/
def SaysBeside (rest : Mapping) (networks : Declared Network) (pools : Declared Pool) : Prop :=
  Admits ["networks", "pools", "domains"] (rest.put (.text "domains") .null) ∧
    defaulted rest "networks" (.unmanaged []) (Declared.reading (Reading.list Network.reading)) = .valid networks ∧
      defaulted rest "pools" (.unmanaged []) (Declared.reading (Reading.list Pool.reading)) = .valid pools

theorem declared_managing_iff {domains : Reading (List Domain)} {x : Declared Domain} :
    Declared.reading domains (.record [("mode", .text "managed"), ("items", .list items)]) = .valid x ↔
      ∃ xs, domains (.list items) = .valid xs ∧ x = .managed xs := by
  let m := entriesOf [("mode", .text "managed"), ("items", .list items)]
  show (Reading.sealed ["mode", "items"] m (Declared.managed <$> Reading.defaulted m "items" [] domains)).under _ = _ ↔ _
  rw [Checked.under_eq_valid_iff, sealed_entriesOf (by rfl) (by decide), Checked.map_eq_valid_iff]
  refine exists_congr fun xs => and_congr ?_ eq_comm
  rw [defaulted_eq_valid_iff, at?_entriesOf]
  simp [List.lookup_cons]

theorem readingWith_managing_iff (domains : Reading (List Domain)) :
    Desired.readingWith domains (managing rest items) = .valid d ↔
      ∃ xs, domains (.list items) = .valid xs ∧ d.domains = .managed xs ∧ SaysBeside rest d.networks d.pools := by
  let m := rest.put (.text "domains") (.record [("mode", .text "managed"), ("items", .list items)])
  -- what the domains are set to is seen under their own key only
  have hadmits : Admits ["networks", "pools", "domains"] m ↔
      Admits ["networks", "pools", "domains"] (rest.put (.text "domains") .null) :=
    Admits.congr (Mapping.keys_put ..)
  have hother {α : Type} {r : Reading α} {key : String} {value : α} (hkey : "domains" ≠ key) :
      defaulted m key value r = defaulted rest key value r := by
    simp only [defaulted, m, Mapping.at?_put, if_neg hkey]
  have hdomains {x : Declared Domain} : defaulted m "domains" (.unmanaged []) (Declared.reading domains) = .valid x ↔
      ∃ xs, domains (.list items) = .valid xs ∧ x = .managed xs := by
    simp [defaulted_eq_valid_iff, m, Mapping.at?_put, declared_managing_iff]
  show Reading.sealed ["networks", "pools", "domains"] m (Desired.mk
      <$> defaulted m "networks" (.unmanaged []) (Declared.reading (Reading.list Network.reading))
      <*> defaulted m "pools" (.unmanaged []) (Declared.reading (Reading.list Pool.reading))
      <*> defaulted m "domains" (.unmanaged []) (Declared.reading domains)) = _ ↔ _
  rw [sealed_eq_valid_iff, hadmits, hother (by decide), hother (by decide)]
  simp only [Checked.seq_eq_valid_iff, Checked.map_eq_valid_iff, hdomains]
  constructor
  · rintro ⟨hkeys, _, _, ⟨_, pools, ⟨networks, hnetworks, rfl⟩, hpools, rfl⟩, ⟨xs, hxs, rfl⟩, rfl⟩
    exact ⟨xs, hxs, rfl, hkeys, hnetworks, hpools⟩
  · rintro ⟨xs, hxs, hd, hkeys, hnetworks, hpools⟩
    exact ⟨hkeys, _, _, ⟨_, _, ⟨_, hnetworks, rfl⟩, hpools, rfl⟩, ⟨xs, hxs, hd⟩, rfl⟩

theorem domainItems?_managing : domainItems? (rest.put (.text "domains")
    (.record [("mode", .text "managed"), ("items", .list items)])) = some items := by
  rw [domainItems?, Mapping.at?_put, if_pos rfl]
  rfl

theorem load_managing : load s (managing rest items) = (do
    let is ← items.mapM (DomainItem.of s)
    ((Desired.readingWith (fun _ => DomainItem.readAll 0 is) (managing rest items)).titled "DesiredState").mapError
      .invalid) := by
  rw [load, managing, Data.untied_mapping]
  dsimp only
  rw [domainItems?_managing, Option.mapM_some]
  cases hitems : items.mapM (DomainItem.of s) <;> rfl

/-- **A topology that manages domains is loaded** if and only if each item gives a domain, and the rest is loaded. -/
theorem load_managing_iff : load s (managing rest items) = .ok d ↔
    ∃ xs, List.Forall₂ (DomainItem.Gives s) items xs ∧ d.domains = .managed xs ∧
      SaysBeside rest d.networks d.pools := by
  have htitled {is : List DomainItem} :
      ((Desired.readingWith (fun _ => DomainItem.readAll 0 is) (managing rest items)).titled "DesiredState").mapError
        TopologyError.invalid = .ok d ↔
      ∃ xs, DomainItem.readAll 0 is = .valid xs ∧ d.domains = .managed xs ∧ SaysBeside rest d.networks d.pools := by
    rw [← readingWith_managing_iff fun _ => DomainItem.readAll 0 is]
    cases Desired.readingWith (fun _ => DomainItem.readAll 0 is) (managing rest items) <;>
      simp [Checked.titled, Except.mapError]
  simp only [DomainItem.forall₂_gives_iff]
  rw [load_managing]
  cases hitems : items.mapM (DomainItem.of s) with
  | error e => simp [bind, Except.bind]
  | ok is => simpa [bind, Except.bind] using htitled

/-- **Items are loaded independently and in order.** The domains of two lists of items, one behind the other, are those of
the first behind which those of the second stand; both have to be loaded. Each item stands for one domain, and networks
and pools are those of the topology without items. -/
theorem load_append (s : GuestSettings) (rest : Mapping) (xs ys : List Data) :
    ((∃ d, load s (managing rest (xs ++ ys)) = .ok d) ↔
        (∃ d, load s (managing rest xs) = .ok d) ∧ ∃ d, load s (managing rest ys) = .ok d) ∧
      (∀ d before behind, load s (managing rest (xs ++ ys)) = .ok d → load s (managing rest xs) = .ok before →
        load s (managing rest ys) = .ok behind →
          d = { before with domains := .managed (before.domains.items ++ behind.domains.items) }) ∧
      ∀ items d, load s (managing rest items) = .ok d ↔
        ∃ domains, List.Forall₂ (DomainItem.Gives s) items domains ∧ d.domains = .managed domains ∧
          load s (managing rest []) = .ok { d with domains := .managed [] } := by
  simp only [load_managing_iff]
  refine ⟨⟨?_, ?_⟩, ?_, fun items d => ?_⟩
  · -- the domains of the whole are cut behind as many as the first list has items
    rintro ⟨d, domains, hgives, -, hbeside⟩
    have hbefore := List.forall₂_take xs.length hgives
    have hbehind := List.forall₂_drop xs.length hgives
    rw [List.take_left] at hbefore
    rw [List.drop_left] at hbehind
    exact ⟨⟨{ d with domains := .managed _ }, _, hbefore, rfl, hbeside⟩,
      ⟨{ d with domains := .managed _ }, _, hbehind, rfl, hbeside⟩⟩
  · rintro ⟨⟨d, _, hbefore, -, hbeside⟩, ⟨_, _, hbehind, -, -⟩⟩
    exact ⟨{ d with domains := .managed _ }, _, List.rel_append hbefore hbehind, rfl, hbeside⟩
  · rintro d before behind ⟨all, hall, hd, hbeside⟩ ⟨first, hfirst, hbefore, hbeside'⟩ ⟨second, hsecond, hbehind, -⟩
    have hdomains : all = first ++ second :=
      (DomainItem.gives_rightUnique s).forall₂ hall (List.rel_append hfirst hsecond)
    have hnetworks : d.networks = before.networks := Checked.valid.inj (hbeside.2.1.symm.trans hbeside'.2.1)
    have hpools : d.pools = before.pools := Checked.valid.inj (hbeside.2.2.symm.trans hbeside'.2.2)
    rw [hbefore, hbehind, Declared.items, Declared.items, ← hdomains, ← hd, ← hnetworks, ← hpools]
  · refine exists_congr fun domains => and_congr_right fun _ => and_congr_right fun _ => ?_
    constructor
    · exact fun hbeside => ⟨[], .nil, rfl, hbeside⟩
    · rintro ⟨_, -, -, hbeside⟩
      exact hbeside

/-- A guest with a profile. -/
def serverItem : Data :=
  .record [("profile", .text "server"), ("name", .text "server"), ("volume", .text "server.qcow2")]

/-- A guest in few words. -/
def plainItem : Data := .record [("name", .text "plain"), ("memory", .text "2 GiB")]

theorem load_append_serverItem_plainItem : ∃ d before behind,
    load {} (managing [] ([serverItem] ++ [plainItem])) = .ok d ∧ load {} (managing [] [serverItem]) = .ok before ∧
      load {} (managing [] [plainItem]) = .ok behind ∧ d.domains.items.map (·.name) = ["server", "plain"] ∧
        d = { before with domains := .managed (before.domains.items ++ behind.domains.items) } := by
  refine ⟨_, _, _, rfl, rfl, rfl, rfl, (load_append {} [] [serverItem] [plainItem]).2.1 _ _ _ rfl rfl rfl⟩

end Topology

end VirtualTopology
