import VirtualTopology.Host.Stored
import VirtualTopology.Proofs.Document.Declared
import VirtualTopology.Proofs.Document.FirstChild

/-!
# The documents of stored volumes

A host gives a volume that it stores by its size and format a document on one line, with its values
between apostrophes (`StoredVolume.document`). For a format that is plain, and for a format that is not
known, the document is read back (`StoredVolume.read?_document`), so that the size and the format are
read as they are stored.
-/

namespace VirtualTopology

open Document Element Document.Reader

namespace Text

/-- A text without marks stands in a document as it is. -/
theorem escape_eq_of_unmarked {s : String} (h : ∀ c ∈ s.toList, isMark c = false) :
    escape s = s.toList := by
  have hchar : ∀ c ∈ s.toList, escapeChar c = [c] := by
    intro c hc
    have hmark := h c hc
    unfold escapeChar
    split
    · exact absurd hmark (by decide)
    · exact absurd hmark (by decide)
    · exact absurd hmark (by decide)
    · exact absurd hmark (by decide)
    · rfl
  rw [escape, List.flatMap_congr hchar, List.flatMap_singleton']

theorem isMark_of_isVisible_of_ne {c : Char} (h : c.isDigit = true) : isMark c = false := by
  obtain ⟨hlow, hhigh⟩ := toNat_of_isDigit h
  simp only [isMark, Bool.or_eq_false_iff, beq_eq_false_iff_ne]
  refine ⟨⟨⟨⟨?_, ?_⟩, ?_⟩, ?_⟩, ?_⟩ <;> rintro rfl <;> exact absurd h (by decide)

/-- An integer is written without marks. -/
theorem unmarked_int (i : Int) : ∀ c ∈ (toString i).toList, isMark c = false := by
  have hnat : ∀ n : Nat, ∀ c ∈ (toString n).toList, isMark c = false :=
    fun n c hc => isMark_of_isVisible_of_ne (isDigit_toString n c hc)
  cases i with
  | ofNat n => exact hnat n
  | negSucc n =>
    have hs : (toString (Int.negSucc n)).toList = '-' :: (toString (n + 1)).toList := by
      simp [toString, Int.repr, Nat.succ_eq_add_one]
    rw [hs, List.forall_mem_cons]
    exact ⟨by decide, hnat (n + 1)⟩

end Text

namespace StoredVolume

/-- The text for a capacity. -/
def capacityText (capacity : Option Int) : String := (capacity.map toString).getD "None"

/-- The element for a capacity. -/
def capacityElement (capacity : Option Int) : Element :=
  { tag := "capacity", attributes := [("unit", "bytes")], lead := capacityText capacity }

/-- The element of a stored volume. -/
def element (capacity : Option Int) (format : Option String) : Element :=
  { tag := "volume"
    children :=
      [capacityElement capacity,
       { tag := "target"
         children := format.toList.map fun f => { tag := "format", attributes := [("type", f)] } }] }

theorem unmarked_capacityText (capacity : Option Int) :
    ∀ c ∈ (capacityText capacity).toList, Text.isMark c = false := by
  cases capacity with
  | none => exact (by decide : ∀ c ∈ "None".toList, Text.isMark c = false)
  | some i => exact Text.unmarked_int i

theorem isSettled_capacityText (capacity : Option Int) : IsSettled (capacityText capacity) := by
  cases capacity with
  | none => exact (by decide : IsSettled "None")
  | some i => exact isSettled_int i

/-- What stands in a document for a format. -/
def formatText (format : Option String) : String :=
  match format with
  | some f => "<format type='" ++ f ++ "'/>"
  | none => ""

/-- The document of a volume, up to its capacity. -/
def front (capacity : Option Int) : String :=
  "<volume><capacity unit='bytes'>" ++ capacityText capacity ++ "</capacity>"

/-- The document of a volume, behind its capacity. -/
def back (format : Option String) : String :=
  "<target>" ++ formatText format ++ "</target></volume>"

theorem front_eq (capacity : Option Int) :
    front capacity = "<volume><capacity unit='bytes'>" ++ capacityText capacity ++ "</capacity>" :=
  rfl

theorem document_eq (capacity : Option Int) (format : StoredFormat) :
    (sized capacity format).document = front capacity ++ back format.name? := by
  have hdocument : (sized capacity format).document =
      "<volume><capacity unit='bytes'>" ++ capacityText capacity ++ "</capacity><target>" ++
        formatText format.name? ++ "</target></volume>" := by
    cases format <;> rfl
  have hsplit : "</capacity><target>" = "</capacity>" ++ "<target>" := by decide
  rw [hdocument, hsplit, front_eq, back]
  simp only [String.append_assoc]

theorem toList_front (capacity : Option Int) :
    (front capacity).toList =
      ('<' :: "volume".toList ++ quotedAttributes '\'' [] ++ ['>']) ++
      (('<' :: "capacity".toList ++ quotedAttributes '\'' [("unit", "bytes")] ++ ['>']) ++
       ((capacityText capacity).toList ++ ('<' :: '/' :: "capacity".toList ++ ['>']))) := by
  have hstart : "<volume><capacity unit='bytes'>".toList =
      ('<' :: "volume".toList ++ quotedAttributes '\'' [] ++ ['>']) ++
        ('<' :: "capacity".toList ++ quotedAttributes '\'' [("unit", "bytes")] ++ ['>']) := by
    decide
  have hend : "</capacity>".toList = '<' :: '/' :: "capacity".toList ++ ['>'] := by decide
  rw [front_eq]
  simp only [String.toList_append, hstart, hend, List.append_assoc]

theorem toList_back (format : Option String) :
    (back format).toList =
      ('<' :: "target".toList ++ quotedAttributes '\'' [] ++ ['>']) ++
      ((formatText format).toList ++
       (('<' :: '/' :: "target".toList ++ ['>']) ++ ('<' :: '/' :: "volume".toList ++ ['>']))) := by
  have hstart : "<target>".toList = '<' :: "target".toList ++ quotedAttributes '\'' [] ++ ['>'] := by
    decide
  have hend : "</target></volume>".toList =
      ('<' :: '/' :: "target".toList ++ ['>']) ++ ('<' :: '/' :: "volume".toList ++ ['>']) := by
    decide
  simp only [back, String.toList_append, hstart, hend, List.append_assoc]

/-- A reader behind the capacity of a volume. -/
def behindFront (r : Reader) (capacity : Option Int) : Reader :=
  (({ r with open_ := newFrame "volume" [] :: r.open_ } : Reader).turn (.content 0)).place
    (capacityElement capacity)

theorem noQuotes : FitQuotes '\'' [] := ⟨.inr rfl, by simp⟩

/-- A reader goes through a volume up to its capacity. -/
theorem run_front {r : Reader} (h : r.Bare) (hi : r.IsIdle) (capacity : Option Int) :
    r.run (front capacity).toList = some (behindFront r capacity) := by
  have hunit : FitQuotes '\'' [("unit", "bytes")] := ⟨.inr rfl, by decide⟩
  have hlegible : LegibleAttributes [("unit", "bytes")] := by simp +decide
  have hlead := Text.escape_eq_of_unmarked (unmarked_capacityText capacity)
  have hvolume : ({ r with open_ := newFrame "volume" [] :: r.open_ } : Reader).Bare :=
    ⟨h.entities, h.rules, rfl, h.outside⟩
  have hcapacity := (hvolume.turn (.content 0)).run_lead
    (by decide : isWord "capacity".toList = true) [("unit", "bytes")] (capacityText capacity)
  have hflat : flattenAll [("unit", "bytes")] = [("unit", "bytes")] := by decide
  rw [hlead, hflat] at hcapacity
  rw [toList_front, run_append, h.run_startTag hi (by decide) legibleAttributes_nil noQuotes,
    Option.bind_some, run_append,
    (hvolume.turn (.content 0)).run_startTag (.inr ⟨⟨0, rfl⟩, by simp⟩) (by decide) hlegible hunit,
    Option.bind_some, hcapacity]
  rfl

/-- A target with the format, if there is one. -/
def targetFrame (format : Option String) : Frame :=
  { newFrame "target" [] with
    children := format.toList.map fun f => { tag := "format", attributes := [("type", f)] } }

/-- A plain format is read as the only child of its target, and no format as no child. -/
theorem run_formatText {r : Reader} (h : r.Bare) {format : Option String}
    (hf : ∀ f ∈ format, Text.IsPlain f) :
    (({ r with open_ := newFrame "target" [] :: r.open_ } : Reader).turn (.content 0)).run
        (formatText format).toList =
      some (({ r with open_ := targetFrame format :: r.open_ } : Reader).turn (.content 0)) := by
  cases format with
  | none => rfl
  | some f =>
    have hplain := hf f rfl
    have hescape := Text.escape_eq_of_unmarked hplain.unmarked
    have htext : (formatText (some f)).toList =
        '<' :: "format".toList ++ quotedAttributes '\'' [("type", f)] ++ ['/', '>'] := by
      have hleft : "<format type='".toList =
          '<' :: "format".toList ++ (' ' :: "type".toList ++ ['=', '\'']) := by decide
      have hright : "'/>".toList = ['\''] ++ ['/', '>'] := by decide
      simp only [formatText, String.toList_append, hleft, hright, quotedAttributes, hescape,
        List.flatMap_cons, List.flatMap_nil, List.append_assoc, List.cons_append, List.nil_append,
        List.append_nil]
    -- single quotes fit, for a plain text has none
    have hquotes : FitQuotes '\'' [("type", f)] := by
      refine ⟨.inr rfl, fun a ha c hc => ?_⟩
      obtain rfl := List.mem_singleton.1 ha
      rw [hescape] at hc
      rintro rfl
      exact absurd (hplain.unmarked _ hc) (by decide)
    have hlegible : LegibleAttributes [("type", f)] := by simp +decide
    have hin : ({ r with open_ := newFrame "target" [] :: r.open_ } : Reader).Bare :=
      ⟨h.entities, h.rules, rfl, h.outside⟩
    have hflat : flattenAll [("type", f)] = [("type", f)] := by simp [flattenAll, hplain.flatten_eq]
    rw [htext, (hin.turn (.content 0)).run_emptyTag (.inr ⟨⟨0, rfl⟩, by simp⟩) (by decide) hlegible
      hquotes, hflat]
    rfl

/-- A reader goes through the rest of a volume. -/
theorem run_back {r : Reader} (h : r.Bare) (capacity : Option Int) {format : Option String}
    (hf : ∀ f ∈ format, Text.IsPlain f) :
    (behindFront r capacity).run (back format).toList
      = some (r.place (element capacity format)) := by
  have hbehind : (behindFront r capacity).Bare := ⟨h.entities, h.rules, rfl, h.outside⟩
  have htarget := hbehind.run_startTag (.inr ⟨⟨0, rfl⟩, by simp [behindFront, place]⟩)
    (by decide : isWord "target".toList = true) legibleAttributes_nil noQuotes
  have hendTarget := hbehind.run_endTag (f := targetFrame format) rfl 0
    (by decide : isWord "target".toList = true)
  have hendVolume := h.run_endTag
    (f := { newFrame "volume" [] with
      children := [Frame.element (targetFrame format), capacityElement capacity] }) rfl 0
    (by decide : isWord "volume".toList = true)
  have hname : (targetFrame format).name = "target".toList := rfl
  rw [hname] at hendTarget
  rw [toList_back, run_append, htarget, Option.bind_some, run_append, run_formatText hbehind hf,
    Option.bind_some, run_append, hendTarget, Option.bind_some]
  refine hendVolume.trans ?_
  have hempty : flattenAll [] = [] := rfl
  cases format <;> simp [Frame.element, element, targetFrame, newFrame, hempty]

theorem isKept_front (capacity : Option Int) : ∀ c ∈ (front capacity).toList, IsKept c := by
  have hfixed : ∀ c ∈ "<volume><capacity unit='bytes'>".toList ++ "</capacity>".toList,
      IsKept c := by
    unfold IsKept
    decide
  rw [List.forall_mem_append] at hfixed
  rw [front_eq, String.toList_append, String.toList_append, List.forall_mem_append,
    List.forall_mem_append]
  exact ⟨⟨hfixed.1, isSettled_capacityText capacity⟩, hfixed.2⟩

theorem isKept_back {format : Option String} (hf : ∀ f ∈ format, Text.IsPlain f) :
    ∀ c ∈ (back format).toList, IsKept c := by
  have hfixed : ∀ c ∈ "<target>".toList ++ "</target></volume>".toList ++
      ("<format type='".toList ++ "'/>".toList), IsKept c := by
    unfold IsKept
    decide
  rw [List.forall_mem_append, List.forall_mem_append, List.forall_mem_append] at hfixed
  obtain ⟨⟨hstart, hend⟩, hleft, hright⟩ := hfixed
  have hformat : ∀ c ∈ (formatText format).toList, IsKept c := by
    cases format with
    | none => exact (by decide : ∀ c ∈ "".toList, isAllowed c = true ∧ c ≠ '\r')
    | some f =>
      rw [formatText, String.toList_append, String.toList_append, List.forall_mem_append,
        List.forall_mem_append]
      exact ⟨⟨hleft, (hf f rfl).isSettled⟩, hright⟩
  rw [back, String.toList_append, String.toList_append, List.forall_mem_append,
    List.forall_mem_append]
  exact ⟨⟨hstart, hformat⟩, hend⟩

/-- **The document of a stored volume is read back**, if its format is plain or not known. -/
theorem read?_document (capacity : Option Int) {format : StoredFormat}
    (hf : ∀ f ∈ format.name?, Text.IsPlain f) :
    read? (sized capacity format).document = some (element capacity format.name?) := by
  rw [document_eq]
  refine read?_of_run ?_ ?_ fun room => ?_
  · rw [String.toList_append, List.forall_mem_append]
    exact ⟨isKept_front capacity, isKept_back hf⟩
  · rw [String.toList_append, toList_front]
    exact ⟨'v', _, rfl, by decide⟩
  · have hbare : ({ definitions := { room } } : Reader).Bare := ⟨rfl, rfl, rfl, rfl⟩
    rw [String.toList_append, run_append, run_front hbare (.inl ⟨rfl, rfl, rfl⟩), Option.bind_some,
      run_back hbare capacity hf]

/-- The capacity that a host states is read back. -/
theorem volumeCapacity?_of_first? {e : Element} {n : Nat}
    (hfirst : e.first? "capacity" = some (capacityElement (some (n : Int))))
    (h : Text.isWritable n = true) : e.volumeCapacity? = some n := by
  have hunit : SizeUnit.ofWord? "bytes" = some .bytes := by decide
  have hattribute : (capacityElement (some (n : Int))).attribute? "unit" = some "bytes" := rfl
  have hlead : (capacityElement (some (n : Int))).lead = toString n := rfl
  simp only [volumeCapacity?, hfirst, Option.bind_eq_bind, Option.bind_some, hattribute,
    Option.getD_some, hunit, hlead, Text.integer?_toString h]
  simp [Quantity.toBytes, SizeUnit.size]

theorem volumeCapacity?_element {n : Nat} (h : Text.isWritable n = true) (format : Option String) :
    (element (some (n : Int)) format).volumeCapacity? = some n :=
  volumeCapacity?_of_first? rfl h

theorem volumeFormat?_element (capacity : Option Int) (format : Option String) :
    (element capacity format).volumeFormat? = format := by
  cases format <;> rfl

/-- If a document states a capacity that can be read, then it states the capacity that is stored. -/
theorem eq_of_volumeCapacity?_element {capacity : Option Int} (hpositive : ∀ i ∈ capacity, 0 ≤ i)
    {format : Option String} {size : Nat} (h : (element capacity format).volumeCapacity? = some size) :
    capacity = some (size : Int) := by
  have hfirst : (element capacity format).first? "capacity" = some (capacityElement capacity) := rfl
  have hunit : SizeUnit.ofWord? "bytes" = some .bytes := by decide
  have hattribute : (capacityElement capacity).attribute? "unit" = some "bytes" := rfl
  have hlead : (capacityElement capacity).lead = capacityText capacity := rfl
  simp only [volumeCapacity?, hfirst, Option.bind_eq_bind, Option.bind_some, hattribute, Option.getD_some,
    hunit, hlead] at h
  cases capacity with
  | none =>
    have hnone : Text.integer? (capacityText none) = .error .malformed := by decide
    rw [hnone] at h
    exact absurd h (by simp)
  | some i =>
    obtain ⟨n, rfl⟩ := Int.eq_ofNat_of_zero_le (hpositive i rfl)
    have htext : capacityText (some (n : Int)) = toString n := rfl
    rw [htext] at h
    split at h
    · next count hcount =>
      have heq := Text.eq_of_integer?_toString hcount
      have hsize : size = count := by simpa [Quantity.toBytes, SizeUnit.size] using h.symm
      rw [hsize]
      exact congrArg some heq.symm
    · exact absurd h (by simp)

/-! ### Documents with any text for a format -/

/-- A document that begins like that of a volume is read from behind its capacity. -/
theorem read?_front_append (capacity : Option Int) (rest : String) :
    read? (front capacity ++ rest) =
      if (Text.unifyLines rest.toList).all isAllowed then
        ((behindFront { definitions := { room := roomOf (front capacity ++ rest).toList } }
            capacity).run (Text.unifyLines rest.toList)).bind fun r =>
          match r.mode, r.open_ with
          | .outside, [] => r.root
          | _, _ => none
      else none := by
  have hkept := isKept_front capacity
  have hlines : Text.unifyLines (front capacity ++ rest).toList
      = (front capacity).toList ++ Text.unifyLines rest.toList := by
    rw [String.toList_append, unifyLines_append fun hm => (hkept _ hm).2 rfl]
  -- the beginning is known, so there is no mark and no declaration in front
  have hstart : ∃ cs, (front capacity).toList ++ Text.unifyLines rest.toList = '<' :: 'v' :: cs := by
    rw [toList_front]
    exact ⟨_, rfl⟩
  have hmark : dropMark ((front capacity).toList ++ Text.unifyLines rest.toList)
      = (front capacity).toList ++ Text.unifyLines rest.toList := by
    obtain ⟨cs, hcs⟩ := hstart
    rw [hcs]
    rfl
  have hdeclaration : dropDeclaration? ((front capacity).toList ++ Text.unifyLines rest.toList)
      = some (false, (front capacity).toList ++ Text.unifyLines rest.toList) := by
    obtain ⟨cs, hcs⟩ := hstart
    rw [hcs]
    simp [dropDeclaration?]
  have hallowed : ((front capacity).toList ++ Text.unifyLines rest.toList).all isAllowed
      = (Text.unifyLines rest.toList).all isAllowed := by
    rw [List.all_append, List.all_eq_true.2 fun c hc => (hkept c hc).1, Bool.true_and]
  generalize hroom : roomOf (front capacity ++ rest).toList = room
  have hbare : ({ definitions := { room } } : Reader).Bare := ⟨rfl, rfl, rfl, rfl⟩
  simp only [read?, readChars?, hlines, hmark, hdeclaration, hallowed, hroom]
  cases (Text.unifyLines rest.toList).all isAllowed with
  | false => rfl
  | true =>
    have hrun : ({ definitions := { room } } : Reader).run
        ((front capacity).toList ++ Text.unifyLines rest.toList)
          = (behindFront { definitions := { room } } capacity).run (Text.unifyLines rest.toList) := by
      rw [run_append, run_front hbare (.inl ⟨rfl, rfl, rfl⟩), Option.bind_some]
    exact congrArg (Option.bind · _) hrun

/-- **With another capacity the same document is read**, whatever its format is: the new capacity is read,
and the format is read as before. -/
theorem read?_document_of_read? {capacity : Option Int} {format : StoredFormat} {e : Element}
    (h : read? (sized capacity format).document = some e) (capacity' : Option Int) :
    ∃ e', read? (sized capacity' format).document = some e' ∧
      e'.first? "capacity" = some (capacityElement capacity') ∧ e'.volumeFormat? = e.volumeFormat? := by
  rw [document_eq, read?_front_append] at h
  rw [document_eq, read?_front_append]
  split at h
  · next hallowed =>
    obtain ⟨r, hr, hroot⟩ := Option.bind_eq_some_iff.1 h
    generalize roomOf (front capacity ++ back format.name?).toList = room at hr
    generalize roomOf (front capacity' ++ back format.name?).toList = room'
    -- behind the capacity the reader is past the first child, and goes on alike whatever that child was
    have hpast : (behindFront { definitions := { room } } capacity).PastFirst := by
      refine ⟨rfl, rfl, rfl, ?_, ?_, ?_, ?_⟩
      · simp [behindFront, place]
      · simp [behindFront, place, IsRooted]
      · simp [behindFront, place]
      · simp [behindFront, place]
    have hself : (behindFront { definitions := { room } } capacity).refit (capacityElement capacity)
        room = behindFront { definitions := { room } } capacity := rfl
    have hother : (behindFront { definitions := { room } } capacity).refit
        (capacityElement capacity') room' = behindFront { definitions := { room := room' } } capacity' :=
      rfl
    have hsame := run_refit (capacityElement capacity) room hpast
      (Text.unifyLines (back format.name?).toList)
    have hnew := run_refit (capacityElement capacity') room' hpast
      (Text.unifyLines (back format.name?).toList)
    rw [hself, hr, Option.map_some, Option.some.injEq] at hsame
    rw [hother, hr, Option.map_some] at hnew
    rw [if_pos hallowed, hnew]
    split at hroot
    · next hmode hopen =>
      have hchildren : ∃ cs, e.children = capacityElement capacity :: cs := by
        refine ⟨e.children.tail, ?_⟩
        have hsame := congrArg Reader.root hsame
        rw [hroot] at hsame
        simp only [refit, hroot, Option.map_some, Option.some.injEq] at hsame
        exact congrArg Element.children hsame
      obtain ⟨cs, hchildren⟩ := hchildren
      refine ⟨refitElement (capacityElement capacity') e, ?_, rfl, ?_⟩
      · simp [refit, hmode, hopen, hroot, refitFrames]
      · -- the format is read off the target, which is not the first child
        have htarget : (refitElement (capacityElement capacity') e).all "target"
            = e.all "target" := by
          simp [Element.all, refitElement, hchildren, capacityElement]
        simp only [volumeFormat?, descend, htarget]
    · exact absurd hroot (by simp)
  · exact absurd h (by simp)

/-- **A volume with another size** has a document that states the size; the format is stated as before
or not at all. -/
theorem read?_document_resized {s : StoredVolume} {e : Element} (h : read? s.document = some e)
    (bytes : Int) :
    ∃ e', read? (s.resized bytes).document = some e' ∧
      e'.first? "capacity" = some (capacityElement (some bytes)) ∧
      (e'.volumeFormat? = none ∨ e'.volumeFormat? = e.volumeFormat?) := by
  have hunknown : read? (sized (some bytes) .unknown).document
      = some (element (some bytes) none) := read?_document (some bytes) (by simp [StoredFormat.name?])
  cases s with
  | documented d => exact ⟨_, hunknown, rfl, .inl rfl⟩
  | sized capacity format =>
    cases format with
    | unstated => exact ⟨_, hunknown, rfl, .inl rfl⟩
    | unknown => exact ⟨_, hunknown, rfl, .inl rfl⟩
    | known f =>
      obtain ⟨e', hread, hfirst, hformat⟩ := read?_document_of_read? h (some bytes)
      exact ⟨e', hread, hfirst, .inr hformat⟩

end StoredVolume

end VirtualTopology
