/-!
# Disruptions

A host in memory can be told to fail. A `Disruption` names the calls that it strikes by their word
and, if it likes, by what they are about; it can let a number of calls pass first, and it can wear
off. `Disruption.strike?` goes through a list of them: the first one that is ready strikes.
-/

namespace VirtualTopology

/-- Calls that are to fail, and how. -/
structure Disruption (ε : Type) where
  /-- The word of the calls. -/
  word : String
  /-- What the calls are about; nothing stands for anything. -/
  subject : Option String := none
  error : ε
  message : Option String := none
  /-- How many calls pass before. -/
  skip : Int := 0
  /-- How many calls fail; nothing stands for all. -/
  times : Option Int := none
  deriving Repr, DecidableEq

namespace Disruption

variable {ε : Type}

/-- Whether a disruption is meant for a call. -/
def concerns (d : Disruption ε) (word subject : String) : Bool :=
  d.word == word && (d.subject.getD subject == subject)

/-- A disruption that strikes once more, afterwards; nothing if it lets the call pass. -/
def struck? (d : Disruption ε) : Option (Disruption ε) :=
  if 0 < d.skip then none
  else
    match d.times with
    | none => some d
    | some n =>
        if n = 0 then none else if 0 < n then some { d with times := some (n - 1) } else some d

/-- A disruption after it let a call pass. -/
def passed (d : Disruption ε) : Disruption ε :=
  if 0 < d.skip then { d with skip := d.skip - 1 } else d

/-- The disruption that strikes a call, if there is one, and all disruptions afterwards. -/
def strike? (word subject : String) :
    List (Disruption ε) → Option (Disruption ε) × List (Disruption ε)
  | [] => (none, [])
  | d :: ds =>
      if d.concerns word subject then
        match d.struck? with
        | some d' => (some d, d' :: ds)
        | none =>
            let (found, ds) := strike? word subject ds
            (found, d.passed :: ds)
      else
        let (found, ds) := strike? word subject ds
        (found, d :: ds)

@[simp] theorem strike?_nil (word subject : String) :
    strike? word subject ([] : List (Disruption ε)) = (none, []) := rfl

end Disruption

end VirtualTopology
