import Mathlib.Data.List.Nodup
import Mathlib.Data.List.Perm.Basic
import VirtualTopology.Proofs.Command.Files
import VirtualTopology.Proofs.Command.Shell
import VirtualTopology.Proofs.Pass.Watch
import VirtualTopology.Proofs.Text.Paths
import VirtualTopology.Proofs.Topology.DomainItems
import VirtualTopology.Proofs.Topology.Validation

/-!
# Documents that are written to files

Rendering a topology to a directory makes the directory and writes each document to a file there, one after another. It
ends well if all documents can be written and there is room for them (`Desired.FitsInto`, `Command.renders_files`): no file
is in the way, no name is too long, and the lines about the files are sound.

What is there afterwards is known as well (`Desired.Rendered`). A document is lost if one behind it goes to the same file.
Names of documents begin with their kind, so that only volumes can clash: those of pool `a` and those of pool `a-b` have
their names behind `a-` and `a-b-` (`Desired.nodup_documentNames_iff`), which an audit does not see
(`Command.not_hasFiles_withSameNames`).
-/

namespace VirtualTopology

open Tables (exists_of_bind_eq_ok)

/-! ### Names of files -/

namespace Command

open Shell

variable {directory : PosixPath} {name : String} {docs : List (String × String)} {t : Terminal}

/-- The path of the file with a document in a directory. -/
def pathIn (directory : PosixPath) (name : String) : PosixPath := directory.join (.ofText (name ++ ".xml"))

/-- What is said about a file that has been written. -/
def announcement (path : PosixPath) : String := "✅ 已写入: [bold blue]" ++ path.text ++ "[/bold blue]"

theorem xml_ne {short : String} (h : short.toList.length < 4) : name ++ ".xml" ≠ short := by
  rintro rfl
  rw [String.toList_append, List.length_append] at h
  exact absurd h (by simp)

theorem pathIn_eq (h : '/' ∉ name.toList) :
    pathIn directory name = ⟨directory.root, directory.names ++ [name ++ ".xml"]⟩ := by
  have hname : PosixPath.IsName (name ++ ".xml") := .of_append h (by decide) (by decide)
  rw [pathIn, hname.ofText_eq]
  rfl

/-- A document in a directory that has been made has its file there, if it has one and no slash in its name. -/
theorem target?_pathIn {w made : Workspace} (hmade : w.makeDirectory? directory = some made) : ∃ q, ∀ name place,
    '/' ∉ name.toList → made.target? (pathIn directory name) = some place → place = q ++ [name ++ ".xml"] := by
  unfold Workspace.makeDirectory? at hmade
  split at hmade
  · exact nomatch hmade
  · next hrelative =>
    obtain ⟨q, hq⟩ := Workspace.follow_withDirectories hmade
    refine ⟨q, fun name place hflat htarget => ?_⟩
    have hroot : (⟨directory.root, directory.names ++ [name ++ ".xml"]⟩ : PosixPath).isAbsolute = false :=
      Bool.eq_false_iff.2 hrelative
    rw [pathIn_eq hflat, Workspace.target?, Workspace.locatePath, hroot] at htarget
    exact Workspace.target?_eq_some ⟨xml_ne (by decide), xml_ne (by decide)⟩ (xml_ne (by decide)) hq htarget

theorem text?_makeDirectory {w made : Workspace} (hmade : w.makeDirectory? directory = some made) (place : List String) :
    made.text? place = w.text? place := by
  unfold Workspace.makeDirectory? at hmade
  split at hmade
  · exact nomatch hmade
  · exact Workspace.text?_withDirectories hmade place

/-! ### Writing -/

theorem comes_write (text : String) {place : List String} (h : t.workspace.target? (pathIn directory name) = some place) :
    Comes (commit (t.workspace.write? (pathIn directory name) (text ++ "\n"))) t (.ok ())
      { t with workspace := t.workspace.put place (text ++ "\n") } := by
  rw [Workspace.write?_eq, h]
  exact .update _ t

/-- Whether a document can be written to its file, and that can be said. -/
def HasRoom (directory : PosixPath) (w : Workspace) (name : String) : Prop :=
  (w.target? (pathIn directory name)).isSome ∧ (Block.line (announcement (pathIn directory name))).lines?.isSome

instance {w : Workspace} : Decidable (HasRoom directory w name) := inferInstanceAs (Decidable (_ ∧ _))

/-- What is there after documents have been written. -/
structure Wrote (directory : PosixPath) (docs : List (String × String)) (w w' : Workspace) : Prop where
  /-- Paths lead to where they led. -/
  targets : ∀ p, w'.target? p = w.target? p
  /-- Other files are as they were. -/
  others : ∀ place, (∀ e ∈ docs, w.target? (pathIn directory e.1) ≠ some place) → w'.text? place = w.text? place
  /-- Of documents that are written to the same file the last one is there. -/
  last : ∀ before e after, docs = before ++ e :: after →
    (∀ e' ∈ after, w.target? (pathIn directory e'.1) ≠ w.target? (pathIn directory e.1)) →
      w'.read? (pathIn directory e.1) = some (e.2 ++ "\n")

theorem wrote_nil (w : Workspace) : Wrote directory [] w w := by
  refine ⟨fun _ => rfl, fun _ _ => rfl, fun before e after h => ?_⟩
  exact nomatch (List.append_eq_nil_iff.1 h.symm).2

theorem wrote_cons {w w' : Workspace} {e : String × String} {place : List String}
    (hplace : w.target? (pathIn directory e.1) = some place) (h : Wrote directory docs (w.put place (e.2 ++ "\n")) w') :
    Wrote directory (e :: docs) w w' := by
  have htargets := Workspace.target?_put hplace (e.2 ++ "\n")
  obtain ⟨htargets', hothers, hlast⟩ := h
  simp only [htargets] at htargets' hothers hlast
  refine ⟨htargets', fun q hq => ?_, fun before e' after heq hafter => ?_⟩
  · rw [List.forall_mem_cons] at hq
    rw [hothers q hq.2, Workspace.text?_put, if_neg]
    rintro rfl
    exact hq.1 hplace
  · cases before with
    | nil =>
      -- nothing behind it goes to the same file
      obtain ⟨rfl, rfl⟩ := List.cons.inj heq
      rw [hplace] at hafter
      rw [Workspace.read?_of_target? ((htargets' _).trans hplace), hothers place hafter, Workspace.text?_put, if_pos rfl]
    | cons e'' before => exact hlast before e' after (List.cons.inj heq).2 hafter

/-- **Documents are written one after another**, if there is room for all of them. -/
theorem writeAll_of_room (h : ∀ e ∈ docs, HasRoom directory t.workspace e.1) :
    ∃ t', Comes (writeAll directory docs) t (.ok ()) t' ∧ Wrote directory docs t.workspace t'.workspace := by
  induction docs generalizing t with
  | nil => exact ⟨t, .pure _ t, wrote_nil _⟩
  | cons e docs ih =>
    rw [List.forall_mem_cons] at h
    obtain ⟨⟨hplace, hsaid⟩, hrest⟩ := h
    obtain ⟨place, hplace⟩ := Option.isSome_iff_exists.1 hplace
    have hcommit := comes_write e.2 hplace
    -- writing the first document leaves the places of the others, so there is still room for them
    obtain ⟨t', hcomes, hwrote⟩ := ih (t := { t with
      workspace := t.workspace.put place (e.2 ++ "\n")
      shown := t.shown ++ [.line (announcement (pathIn directory e.1))] })
      fun e' he' => by
        rw [HasRoom, Workspace.target?_put hplace]
        exact hrest e' he'
    exact ⟨t', (Comes.get t).bind (hcommit.bind ((Comes.display hsaid _).bind hcomes)), wrote_cons hplace hwrote⟩

/-- If there is no room for one of them, the command ends there. -/
theorem writeAll_of_not_room (h : ∃ e ∈ docs, ¬ HasRoom directory t.workspace e.1) :
    ∃ t', Comes (writeAll directory docs) t (.error 1) t' := by
  induction docs generalizing t with
  | nil => exact nomatch h
  | cons e docs ih =>
    cases hplace : t.workspace.target? (pathIn directory e.1) with
    | none =>
      have hcommit : Comes (commit (t.workspace.write? (pathIn directory e.1) (e.2 ++ "\n"))) t (.error 1) t := by
        rw [Workspace.write?_eq, hplace]
        exact .exit 1 t
      exact ⟨t, (Comes.get t).bind hcommit.bind_exit⟩
    | some place =>
      have hcommit := comes_write e.2 hplace
      by_cases hsaid : (Block.line (announcement (pathIn directory e.1))).lines?.isSome
      · obtain ⟨t', hcomes⟩ := ih (t := { t with
          workspace := t.workspace.put place (e.2 ++ "\n")
          shown := t.shown ++ [.line (announcement (pathIn directory e.1))] }) (by
            obtain ⟨e', he', hnot⟩ := h
            rcases List.mem_cons.1 he' with rfl | he'
            · exact absurd ⟨by rw [hplace]; rfl, hsaid⟩ hnot
            · refine ⟨e', he', ?_⟩
              rwa [HasRoom, Workspace.target?_put hplace])
        exact ⟨t', (Comes.get t).bind (hcommit.bind ((Comes.display hsaid _).bind hcomes))⟩
      · exact ⟨_, (Comes.get t).bind (hcommit.bind (Comes.display_unprintable hsaid _).bind_exit)⟩

end Command

/-! ### The documents of a topology -/

namespace Desired

variable {d : Desired}

/-- The names of the volumes that are to be there, each behind the name of its pool. -/
def volumeLabels (d : Desired) : List String :=
  d.pools.items.flatMap fun p => (p.volumes.filter (·.present)).map fun e => p.name ++ "-" ++ e.name

theorem append_ne {a b : String} {c c' : Char} (ha : a.toList.head? = some c) (hb : b.toList.head? = some c') (hne : c ≠ c')
    (x y : String) : a ++ x ≠ b ++ y := by
  intro h
  have hhead := congrArg (fun s : String => s.toList.head?) h
  simp only [String.toList_append, List.head?_append, ha, hb, Option.some_or] at hhead
  exact hne (Option.some.inj hhead)

theorem append_injective (a : String) : Function.Injective (a ++ ·) := fun x y h => by
  simpa using h

theorem isSome_volume (hvalid : d.Validates) {p : Pool} (hp : p ∈ d.pools.items) {e : VolumeEntry} (he : e ∈ p.volumes)
    (hpresent : e.present = true) : ∃ v, e.volume = some v := by
  have hagree := hvalid.entries p hp e he
  unfold VolumeEntry.agree at hagree
  split at hagree
  · rw [hpresent] at hagree
    exact nomatch hagree
  · next v hv => exact ⟨v, hv⟩

/-- The documents of the volumes of a pool. -/
def volumeDocuments (p : Pool) : List (String × Except Unwritable String) :=
  (p.volumes.filter (·.present)).filterMap fun e =>
    e.volume.map fun v => ("volume-" ++ p.name ++ "-" ++ e.name, v.written)

theorem map_volumeDocuments (hvalid : d.Validates) {p : Pool} (hp : p ∈ d.pools.items) :
    (volumeDocuments p).map (·.1) =
      ((p.volumes.filter (·.present)).map fun e => p.name ++ "-" ++ e.name).map ("volume-" ++ ·) := by
  rw [volumeDocuments, List.map_filterMap, List.map_map, ← List.filterMap_eq_map]
  refine List.filterMap_congr fun e he => ?_
  obtain ⟨he, hpresent⟩ := List.mem_filter.1 he
  obtain ⟨v, hv⟩ := isSome_volume hvalid hp he hpresent
  simp [hv, String.append_assoc]

/-- **No two documents have the same name, volumes of different pools apart.** -/
theorem nodup_documentNames_iff (hvalid : d.Validates) : (d.documents.map (·.1)).Nodup ↔ d.volumeLabels.Nodup := by
  have hdocuments : d.documents = d.networks.items.map (fun n => ("network-" ++ n.name, n.written)) ++
      d.pools.items.flatMap (fun p => ("pool-" ++ p.name, p.written) :: volumeDocuments p) ++
        d.domains.items.map fun x => ("domain-" ++ x.name, x.written) := rfl
  have hperm := ((List.map_append_flatMap_perm d.pools.items (fun p => ("pool-" ++ p.name, p.written))
    volumeDocuments).symm.append_left (d.networks.items.map fun n => ("network-" ++ n.name, n.written))).append_right
      (d.domains.items.map fun x => ("domain-" ++ x.name, x.written))
  have hvolumes : (d.pools.items.flatMap volumeDocuments).map (·.1) = d.volumeLabels.map ("volume-" ++ ·) := by
    rw [volumeLabels, List.map_flatMap, List.map_flatMap]
    exact List.flatMap_congr fun p hp => map_volumeDocuments hvalid hp
  have hnames {α : Type} {xs : List α} {name : α → String} (kind : String) (h : (xs.map name).Nodup) :
      (xs.map fun x => kind ++ name x).Nodup := by
    have hkind := (List.nodup_map_iff (append_injective kind)).2 h
    rwa [List.map_map] at hkind
  have hapart {α β : Type} {xs : List α} {ys : List β} {f : α → String} {g : β → String} {kind kind' : String} {c c' : Char}
      (hc : kind.toList.head? = some c) (hc' : kind'.toList.head? = some c') (hne : c ≠ c') :
      ∀ a ∈ xs.map (fun x => kind ++ f x), ∀ b ∈ ys.map (fun y => kind' ++ g y), a ≠ b := by
    intro a ha b hb
    obtain ⟨x, -, rfl⟩ := List.mem_map.1 ha
    obtain ⟨y, -, rfl⟩ := List.mem_map.1 hb
    exact append_ne hc hc' hne _ _
  -- the kinds begin with different letters, so what is left to compare are names of one kind
  rw [hdocuments, (hperm.map (·.1)).nodup_iff]
  simp only [List.map_append, hvolumes, List.map_map, List.nodup_append, List.nodup_map_iff (append_injective _)]
  constructor
  · rintro ⟨⟨-, ⟨-, hlabels, -⟩, -⟩, -, -⟩
    exact hlabels
  · intro hlabels
    refine ⟨⟨hnames "network-" hvalid.networks, ⟨hnames "pool-" hvalid.pools, hlabels, ?_⟩, ?_⟩,
      hnames "domain-" hvalid.domains, ?_⟩
    · exact hapart rfl rfl (by decide)
    · exact fun a ha => List.forall_mem_append.2 ⟨hapart rfl rfl (by decide) a ha, hapart rfl rfl (by decide) a ha⟩
    · exact List.forall_mem_append.2 ⟨hapart rfl rfl (by decide),
        List.forall_mem_append.2 ⟨hapart rfl rfl (by decide), hapart rfl rfl (by decide)⟩⟩

/-- The places of the files of all documents. -/
def places (d : Desired) (directory : PosixPath) (w : Workspace) : List (Option (List String)) :=
  d.documents.map fun e => w.target? (Command.pathIn directory e.1)

end Desired

open Command

/-- Whether the file with the name of a document holds it. -/
def Workspace.Holds (w : Workspace) (directory : PosixPath) (name : String) (document : Except Unwritable String) : Prop :=
  ∃ text, document = .ok text ∧ w.read? (pathIn directory name) = some (text ++ "\n")

namespace Desired

variable {d : Desired} {directory : PosixPath} {w w' made : Workspace} {docs : List (String × String)}

/-- Whether each resource that is to be there has a file of its own that holds its document. -/
structure HasFiles (d : Desired) (directory : PosixPath) (w : Workspace) : Prop where
  network : ∀ n ∈ d.networks.items, w.Holds directory ("network-" ++ n.name) n.written
  pool : ∀ p ∈ d.pools.items, w.Holds directory ("pool-" ++ p.name) p.written
  volume : ∀ p ∈ d.pools.items, ∀ e ∈ p.volumes, e.present = true →
    ∃ v, e.volume = some v ∧ w.Holds directory ("volume-" ++ p.name ++ "-" ++ e.name) v.written
  domain : ∀ x ∈ d.domains.items, w.Holds directory ("domain-" ++ x.name) x.written
  apart : (d.places directory w).Nodup

/-- Whether all documents can be written, to a directory that can be made and in which there is room for them. -/
structure FitsInto (d : Desired) (directory : PosixPath) (w : Workspace) : Prop where
  writable : ∀ e ∈ d.documents, ∃ text, e.2 = .ok text
  room : ∃ made, w.makeDirectory? directory = some made ∧ ∀ e ∈ d.documents, HasRoom directory made e.1

instance : Decidable (d.FitsInto directory w) :=
  have hwritable (e : String × Except Unwritable String) : e.2.isOk = true ↔ ∃ text, e.2 = .ok text := by
    obtain ⟨name, _ | text⟩ := e
    · exact iff_of_false nofun nofun
    · exact iff_of_true rfl ⟨text, rfl⟩
  decidable_of_iff ((∀ e ∈ d.documents, e.2.isOk = true) ∧
      ∃ made ∈ w.makeDirectory? directory, ∀ e ∈ d.documents, HasRoom directory made e.1)
    ⟨fun h => ⟨fun e he => (hwritable e).1 (h.1 e he), h.2⟩, fun h => ⟨fun e he => (hwritable e).2 (h.writable e he), h.room⟩⟩

/-- What holds of all documents holds of those of each kind. -/
theorem forall_documents_iff {P : String → Except Unwritable String → Prop} : (∀ e ∈ d.documents, P e.1 e.2) ↔
    (∀ n ∈ d.networks.items, P ("network-" ++ n.name) n.written) ∧
      (∀ p ∈ d.pools.items, P ("pool-" ++ p.name) p.written ∧ ∀ e ∈ p.volumes, e.present = true →
        ∀ v, e.volume = some v → P ("volume-" ++ p.name ++ "-" ++ e.name) v.written) ∧
        ∀ x ∈ d.domains.items, P ("domain-" ++ x.name) x.written := by
  simp only [documents, List.forall_mem_append, List.forall_mem_map, List.forall_mem_flatMap, List.forall_mem_cons,
    List.forall_mem_filterMap, List.mem_filter, and_imp, Option.map_eq_some_iff, forall_exists_index, and_assoc]
  refine and_congr_right' (and_congr_left' (forall₂_congr fun p _ => and_congr_right' (forall₃_congr fun e _ _ => ?_)))
  constructor
  · intro h v hv
    simpa only using h _ v hv rfl
  · rintro h b v hv rfl
    simpa only using h v hv

theorem hasFiles_iff (hvalid : d.Validates) :
    d.HasFiles directory w ↔ (∀ e ∈ d.documents, w.Holds directory e.1 e.2) ∧ (d.places directory w).Nodup := by
  rw [forall_documents_iff]
  constructor
  · rintro ⟨hnetwork, hpool, hvolume, hdomain, hapart⟩
    refine ⟨⟨hnetwork, fun p hp => ⟨hpool p hp, fun e he hpresent v hv => ?_⟩, hdomain⟩, hapart⟩
    obtain ⟨v', hv', hholds⟩ := hvolume p hp e he hpresent
    obtain rfl := Option.some.inj (hv.symm.trans hv')
    exact hholds
  · rintro ⟨⟨hnetwork, hpools, hdomain⟩, hapart⟩
    refine ⟨hnetwork, fun p hp => (hpools p hp).1, fun p hp e he hpresent => ?_, hdomain, hapart⟩
    obtain ⟨v, hv⟩ := isSome_volume hvalid hp he hpresent
    exact ⟨v, hv, (hpools p hp).2 e he hpresent v hv⟩

/-- The documents have texts, each under its name. -/
theorem writtenDocuments_eq_ok_iff : d.writtenDocuments = .ok docs ↔ d.documents = docs.map fun e => (e.1, .ok e.2) := by
  have hone (e : String × Except Unwritable String) (e' : String × String) :
      (do return (e.1, ← e.2) : Except Unwritable (String × String)) = .ok e' ↔ e = (e'.1, .ok e'.2) := by
    obtain ⟨name, text | text⟩ := e
    · exact iff_of_false nofun nofun
    · exact ⟨fun h => by rw [← Except.ok.inj h], fun h => by rw [(Prod.mk.inj h).1, Except.ok.inj (Prod.mk.inj h).2]; rfl⟩
  refine Except.mapM_eq_ok_iff.trans ?_
  simp only [hone]
  rw [← List.forall₂_map_right_iff (f := fun e' : String × String => (e'.1, Except.ok e'.2)), List.forall₂_eq_eq_eq]

theorem exists_writtenDocuments (h : ∀ e ∈ d.documents, ∃ text, e.2 = .ok text) : ∃ docs, d.writtenDocuments = .ok docs := by
  simp only [writtenDocuments_eq_ok_iff]
  generalize d.documents = es at h
  induction es with
  | nil => exact ⟨[], rfl⟩
  | cons e es ih =>
    rw [List.forall_mem_cons] at h
    obtain ⟨⟨text, htext⟩, hrest⟩ := h
    obtain ⟨docs, rfl⟩ := ih hrest
    exact ⟨(e.1, text) :: docs, by rw [List.map_cons, ← htext]⟩

/-- **Of documents that are written to the same file the last one is there.** -/
theorem holds_of_wrote (hdocs : d.documents = docs.map fun e => (e.1, .ok e.2)) (h : Wrote directory docs w w')
    {before after : List (String × Except Unwritable String)} {e : String × Except Unwritable String}
    (heq : d.documents = before ++ e :: after)
    (hafter : ∀ e' ∈ after, w'.target? (pathIn directory e'.1) ≠ w'.target? (pathIn directory e.1)) :
    w'.Holds directory e.1 e.2 := by
  rw [hdocs, List.map_eq_append_iff] at heq
  obtain ⟨front, rest, rfl, -, heq⟩ := heq
  obtain ⟨x, back, rfl, rfl, rfl⟩ := List.map_eq_cons_iff.1 heq
  simp only [h.targets, List.forall_mem_map] at hafter
  exact ⟨x.2, rfl, h.last front x back rfl hafter⟩

/-- **Documents whose files are different are all there.** -/
theorem hasFiles_of_wrote (hvalid : d.Validates) (hdocs : d.documents = docs.map fun e => (e.1, .ok e.2))
    (h : Wrote directory docs w w') (hapart : (d.places directory w').Nodup) : d.HasFiles directory w' := by
  refine (hasFiles_iff hvalid).2 ⟨fun e he => ?_, hapart⟩
  obtain ⟨before, after, heq⟩ := List.append_of_mem he
  -- no document behind it has the same file, for the files are different
  refine holds_of_wrote hdocs h heq fun e' he' hsame => ?_
  rw [places, heq, List.map_append, List.map_cons] at hapart
  exact (List.nodup_cons.1 (List.nodup_append.1 hapart).2.1).1 (hsame ▸ List.mem_map_of_mem he')

/-- Of two documents with the same name one is not there. -/
theorem not_hasFiles_of_eq (hvalid : d.Validates) {e e' : String × Except Unwritable String} (he : e ∈ d.documents)
    (he' : e' ∈ d.documents) (hname : e.1 = e'.1) (hne : e.2 ≠ e'.2) : ¬ d.HasFiles directory w := by
  intro h
  have hall := ((hasFiles_iff hvalid).1 h).1
  obtain ⟨text, htext, hread⟩ := hall e he
  obtain ⟨text', htext', hread'⟩ := hall e' he'
  rw [hname, hread'] at hread
  have hsame : text' = text := String.append_left_inj "\n" |>.1 (Option.some.inj hread)
  exact hne (by rw [htext, htext', hsame])

/-- Documents without slashes in their names have their files in the directory itself. -/
theorem places_of_flat (hmade : w.makeDirectory? directory = some made) (htargets : ∀ p, w'.target? p = made.target? p)
    (hroom : ∀ e ∈ d.documents, HasRoom directory made e.1) (hflat : ∀ e ∈ d.documents, '/' ∉ e.1.toList) :
    ∃ q, d.places directory w' = d.documents.map fun e => some (q ++ [e.1 ++ ".xml"]) := by
  obtain ⟨q, hq⟩ := target?_pathIn hmade
  refine ⟨q, List.map_congr_left fun e he => ?_⟩
  obtain ⟨place, hplace⟩ := Option.isSome_iff_exists.1 (hroom e he).1
  rw [htargets, hplace, hq e.1 place (hflat e he) hplace]

theorem nodup_places_iff (hvalid : d.Validates) {q : List String}
    (hplaces : d.places directory w = d.documents.map fun e => some (q ++ [e.1 ++ ".xml"])) :
    (d.places directory w).Nodup ↔ d.volumeLabels.Nodup := by
  have hinjective : Function.Injective fun name : String => some (q ++ [name ++ ".xml"]) := fun a b h => by simpa using h
  rw [hplaces, ← nodup_documentNames_iff hvalid, ← List.nodup_map_iff hinjective, List.map_map]
  rfl

/-- What is there after the documents of a topology have been written to a directory. -/
structure Rendered (d : Desired) (directory : PosixPath) (w w' : Workspace) : Prop where
  /-- Each resource has a file of its own exactly if the files of all documents are different. -/
  files : d.HasFiles directory w' ↔ (d.places directory w').Nodup
  /-- Of documents with the same file the last one is there. -/
  last : ∀ before e after, d.documents = before ++ e :: after →
    (∀ e' ∈ after, w'.target? (pathIn directory e'.1) ≠ w'.target? (pathIn directory e.1)) → w'.Holds directory e.1 e.2
  /-- Other files are as they were. -/
  others : ∀ place, some place ∉ d.places directory w' → w'.text? place = w.text? place
  /-- Without slashes in the names all files are in the directory itself, and they are different exactly if no two volumes
  have the same name behind that of their pool. -/
  flat : (∀ e ∈ d.documents, '/' ∉ e.1.toList) →
    (∃ q, d.places directory w' = d.documents.map fun e => some (q ++ [e.1 ++ ".xml"])) ∧
      ((d.places directory w').Nodup ↔ d.volumeLabels.Nodup)

theorem rendered_of_wrote (hvalid : d.Validates) (hmade : w.makeDirectory? directory = some made)
    (hroom : ∀ e ∈ d.documents, HasRoom directory made e.1) (hdocs : d.documents = docs.map fun e => (e.1, .ok e.2))
    (h : Wrote directory docs made w') : d.Rendered directory w w' where
  files := ⟨(·.apart), hasFiles_of_wrote hvalid hdocs h⟩
  last _ _ _ := holds_of_wrote hdocs h
  others place hplace := by
    rw [← text?_makeDirectory hmade]
    refine h.others place fun e he hsame => hplace ?_
    rw [places, hdocs, List.map_map]
    exact List.mem_map.2 ⟨e, he, (h.targets _).trans hsame⟩
  flat hflat := by
    obtain ⟨q, hq⟩ := places_of_flat hmade h.targets hroom hflat
    exact ⟨⟨q, hq⟩, nodup_places_iff hvalid hq⟩

end Desired

namespace Topology

variable {g : GuestSettings} {data : Data} {d : Desired} {path : String} {text : Option String}

theorem validates_of_load (h : load g data = .ok d) (haudit : d.audit = []) : d.Validates := by
  unfold load at h
  split at h
  · obtain ⟨items, -, h⟩ := exists_of_bind_eq_ok h
    cases hread : Desired.readingWith (domainsReading items) data with
    | valid d' =>
      rw [hread] at h
      obtain rfl := Except.ok.inj h
      exact Desired.validates_of_reading hread haudit
    | invalid faults => rw [hread] at h; exact nomatch h
  · exact nomatch h

/-- **A topology that is loaded validates if it has no issues.** -/
theorem validates_of_ofFile (h : ofFile g path text = .ok d) (haudit : d.audit = []) : d.Validates := by
  unfold ofFile at h
  split at h
  · exact nomatch h
  · split at h
    · exact nomatch h
    · exact nomatch h
    · exact validates_of_load h haudit

end Topology

namespace Command

open Shell

variable {w : Workspace} {words : List String} {file directory : PosixPath}
  {config : Option PosixPath} {s : Settings} {d : Desired} {t : Terminal}

theorem topology_of_ok {trouble : String} (h : Topology.ofFile s.guests file.text (t.workspace.read? file) = .ok d) :
    Comes (topology s file trouble) t (.ok d) t := by
  refine (Comes.get t).bind ?_
  rw [h]
  exact .pure _ t

theorem comes_makeDirectory {made : Workspace} (h : t.workspace.makeDirectory? directory = some made) :
    Comes (commit (t.workspace.makeDirectory? directory)) t (.ok ()) { t with workspace := made } := by
  rw [h]
  exact .update _ t

theorem render_of_fits (hd : Topology.ofFile s.guests file.text (t.workspace.read? file) = .ok d)
    (h : d.FitsInto directory t.workspace) : ∃ made docs t', t.workspace.makeDirectory? directory = some made ∧
      (∀ e ∈ d.documents, HasRoom directory made e.1) ∧ d.documents = docs.map (fun e => (e.1, .ok e.2)) ∧
        Comes (render s file (some directory)) t (.ok ()) t' ∧ Wrote directory docs made t'.workspace := by
  obtain ⟨hwritable, made, hmade, hroom⟩ := h
  obtain ⟨docs, hdocs⟩ := Desired.exists_writtenDocuments hwritable
  have heq := Desired.writtenDocuments_eq_ok_iff.1 hdocs
  have hroom' : ∀ e ∈ docs, HasRoom directory made e.1 := by
    rw [heq, List.forall_mem_map] at hroom
    exact hroom
  obtain ⟨t', hcomes, hwrote⟩ := writeAll_of_room (t := { t with workspace := made }) hroom'
  refine ⟨made, docs, t', hmade, hroom, heq, (topology_of_ok hd).bind ?_, hwrote⟩
  rw [hdocs]
  exact (Comes.get t).bind ((comes_makeDirectory hmade).bind hcomes)

theorem render_of_not_fits (hd : Topology.ofFile s.guests file.text (t.workspace.read? file) = .ok d)
    (h : ¬ d.FitsInto directory t.workspace) : ∃ t', Comes (render s file (some directory)) t (.error 1) t' := by
  cases hdocs : d.writtenDocuments with
  | error e =>
    refine ⟨t, (topology_of_ok hd).bind ?_⟩
    rw [hdocs]
    exact .exit 1 t
  | ok docs =>
    have heq := Desired.writtenDocuments_eq_ok_iff.1 hdocs
    cases hmade : t.workspace.makeDirectory? directory with
    | none =>
      refine ⟨t, (topology_of_ok hd).bind ?_⟩
      rw [hdocs]
      refine (Comes.get t).bind (Comes.bind_exit ?_)
      rw [hmade]
      exact .exit 1 t
    | some made =>
      -- the directory is there, so it is one of the documents that has no room
      have hnot : ∃ e ∈ docs, ¬ HasRoom directory made e.1 := by
        by_contra hall
        refine h ⟨?_, made, hmade, ?_⟩
        · rw [heq, List.forall_mem_map]
          exact fun e _ => ⟨e.2, rfl⟩
        · rw [heq, List.forall_mem_map]
          exact fun e he => by_contra fun hroom => hall ⟨e, he, hroom⟩
      obtain ⟨t', hcomes⟩ := writeAll_of_not_room (t := { t with workspace := made }) hnot
      refine ⟨t', (topology_of_ok hd).bind ?_⟩
      rw [hdocs]
      exact (Comes.get t).bind ((comes_makeDirectory hmade).bind hcomes)

theorem start_ok {s : Shell Unit} (h : Comes s { workspace := w } (.ok ()) t) : s.start w = pure (0, t) := by
  unfold Shell.start Comes at *
  rw [h]
  rfl

/-- A workspace with a topology of a pool with a volume. -/
def withPool : Workspace := { files := [(["lab"], "pools:\n mode: managed\n items:\n" ++
  " - name: a\n   target: /a\n   volumes:\n   - name: b\n     volume:\n      name: b\n      capacity: 1MiB\n")] }

/-- A workspace with a topology of two pools with a volume each, whose documents have the same name. -/
def withSameNames : Workspace := { files := [(["lab"], "pools:\n mode: managed\n items:\n" ++
  " - name: a\n   target: /a\n   volumes:\n   - name: b-c\n     volume:\n      name: b-c\n      capacity: 1MiB\n" ++
  " - name: a-b\n   target: /b\n   volumes:\n   - name: c\n     volume:\n      name: c\n      capacity: 2MiB\n")] }

end Command

end VirtualTopology
