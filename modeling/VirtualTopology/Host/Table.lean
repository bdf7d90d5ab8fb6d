/-!
# Tables

A table keeps entries under names, in the order in which the names were first used. The laws say
what each operation does to the view `Table.get?`.
-/

namespace VirtualTopology

/-- Entries under names. -/
abbrev Table (α : Type) := List (String × α)

namespace Table

variable {α : Type}

/-- The entry under a name. -/
def get? (t : Table α) (name : String) : Option α := List.lookup name t

/-- Whether there is an entry under a name. -/
def has (t : Table α) (name : String) : Bool := (t.get? name).isSome

/-- The names in use, in order. -/
def names (t : Table α) : List String := t.map (·.1)

/-- Put an entry under a name: in place if the name is in use, at the end otherwise. -/
def put : Table α → String → α → Table α
  | [], name, a => [(name, a)]
  | (n, b) :: rest, name, a => if n = name then (n, a) :: rest else (n, b) :: put rest name a

/-- Take out what is under a name. -/
def erase (t : Table α) (name : String) : Table α := t.filter (·.1 != name)

@[simp] theorem get?_nil (name : String) : get? ([] : Table α) name = none := rfl

theorem get?_cons (e : String × α) (t : Table α) (name : String) :
    get? (e :: t) name = if e.1 = name then some e.2 else get? t name := by
  obtain ⟨n, a⟩ := e
  by_cases h : n = name
  · simp [get?, h]
  · simp [get?, List.lookup_cons, h, beq_eq_false_iff_ne.2 (Ne.symm h)]

theorem get?_put (t : Table α) (name other : String) (a : α) :
    (t.put name a).get? other = if name = other then some a else t.get? other := by
  induction t with
  | nil => simp [put, get?_cons]
  | cons e t ih =>
    obtain ⟨n, b⟩ := e
    by_cases h : n = name
    · subst h
      by_cases ho : n = other <;> simp [put, get?_cons, ho]
    · by_cases ho : n = other
      · subst ho
        simp [put, get?_cons, h, Ne.symm h]
      · simp [put, get?_cons, h, ho, ih]

@[simp] theorem erase_cons (e : String × α) (t : Table α) (name : String) :
    erase (e :: t) name = if e.1 = name then t.erase name else e :: t.erase name := by
  by_cases h : e.1 = name <;> simp [erase, h]

theorem get?_erase (t : Table α) (name other : String) :
    (t.erase name).get? other = if name = other then none else t.get? other := by
  induction t with
  | nil => simp [erase]
  | cons e t ih =>
    obtain ⟨n, b⟩ := e
    by_cases h : n = name
    · subst h
      rw [erase_cons, if_pos rfl, ih]
      by_cases ho : n = other <;> simp [get?_cons, ho]
    · by_cases ho : n = other
      · subst ho
        simp [get?_cons, h, Ne.symm h]
      · simp [get?_cons, h, ho, ih]

end Table

end VirtualTopology
