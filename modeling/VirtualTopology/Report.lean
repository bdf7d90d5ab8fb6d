import VirtualTopology.Data.Checked
import VirtualTopology.Resource

/-!
# Reports

A pass gives one `Result` for each resource. A `Report` lists them by kind and then by name, in the
order of the code points; results with the same kind and name keep the order in which they were
recorded (`Report.of`).
-/

namespace VirtualTopology

/-- What became of a resource. -/
inductive Outcome where
  | created
  | updated
  | unchanged
  | deleted
  | skippedUnmanaged
  | failed
  | cancelled
  deriving Repr, DecidableEq, Inhabited

namespace Outcome

/-- All outcomes. -/
def all : List Outcome :=
  [created, updated, unchanged, deleted, skippedUnmanaged, failed, cancelled]

/-- The word for an outcome. -/
def word : Outcome → String
  | created => "created"
  | updated => "updated"
  | unchanged => "unchanged"
  | deleted => "deleted"
  | skippedUnmanaged => "skipped-unmanaged"
  | failed => "failed"
  | cancelled => "cancelled"

/-- The outcome that a word names. -/
def ofWord? (s : String) : Option Outcome := all.find? (·.word == s)

/-- Whether an outcome is a success of the pass. -/
def isSuccess : Outcome → Bool
  | failed | cancelled => false
  | _ => true

/-- Whether an outcome is a change of the host. -/
def isChange : Outcome → Bool
  | created | updated | deleted => true
  | _ => false

end Outcome

/-- Why a resource failed. -/
inductive FailureKind where
  | operational
  /-- The resource would have to be made anew. -/
  | unsupportedChange
  | dependencyFailed
  | inUse
  deriving Repr, DecidableEq, Inhabited

namespace FailureKind

/-- All kinds of failure. -/
def all : List FailureKind := [operational, unsupportedChange, dependencyFailed, inUse]

/-- The word for a kind of failure. -/
def word : FailureKind → String
  | operational => "operational"
  | unsupportedChange => "unsupported-change"
  | dependencyFailed => "dependency-failed"
  | inUse => "in-use"

end FailureKind

/-- What happened to one resource. -/
structure Result where
  kind : ResourceKind
  name : String
  outcome : Outcome
  /-- The step that was attempted. -/
  operation : Option String := none
  reason : Option String := none
  failureKind : Option FailureKind := none
  details : List String := []
  deriving Repr, DecidableEq, Inhabited

namespace Result

/-- The result of a resource that failed. -/
def failure (kind : ResourceKind) (name operation reason : String)
    (failureKind : FailureKind := .operational) : Result :=
  { kind, name, outcome := .failed, operation := some operation, reason := some reason
    failureKind := some failureKind }

/-- The reading of a result. Keys that it does not have are ignored. -/
def reading : Reading Result :=
  Reading.record fun m =>
    Result.mk
      <$> Reading.required m "kind" (Reading.among (ResourceKind.all.map fun k => (k.word, k)))
      <*> Reading.required m "name" Reading.text
      <*> Reading.required m "outcome" (Reading.among (Outcome.all.map fun o => (o.word, o)))
      <*> Reading.defaulted m "operation" none (Reading.optional Reading.text)
      <*> Reading.defaulted m "reason" none (Reading.optional Reading.text)
      <*> Reading.defaulted m "error_kind" none
        (Reading.optional (Reading.among (FailureKind.all.map fun k => (k.word, k))))
      <*> Reading.defaulted m "details" [] (Reading.list Reading.text)

/-- The record of a result. -/
def dump (r : Result) : Data :=
  .record [("kind", .text r.kind.word), ("name", .text r.name), ("outcome", .text r.outcome.word),
    ("operation", .text? r.operation), ("reason", .text? r.reason),
    ("error_kind", .text? (r.failureKind.map (·.word))),
    ("details", .list (r.details.map .text))]

/-- Whether a result may stand before another one: by kind, then by name. -/
def before (a b : Result) : Bool :=
  decide (a.kind.rank < b.kind.rank) || (a.kind == b.kind && decide (a.name ≤ b.name))

end Result

/-- The results of a pass, in order. -/
structure Report where
  results : List Result := []
  dryRun : Bool := false
  deriving Repr, DecidableEq, Inhabited

namespace Report

/-- The report on results in the order in which they were recorded. -/
def of (results : List Result) (dryRun : Bool) : Report :=
  { results := results.mergeSort Result.before, dryRun }

/-- The reading of a report. Keys that it does not have are ignored. -/
def reading : Reading Report :=
  Reading.record fun m =>
    Report.of
      <$> Reading.defaulted m "results" [] (Reading.list Result.reading)
      <*> Reading.defaulted m "dry_run" false Reading.bool

/-- Whether every result is a success. -/
def success (r : Report) : Bool := r.results.all (·.outcome.isSuccess)

/-- The status with which a program that shows the report ends. -/
def exitCode (r : Report) : Nat := if r.success then 0 else 1

/-- The number of resources that were changed. -/
def changeCount (r : Report) : Nat := r.results.countP (·.outcome.isChange)

/-- The first result of a resource. -/
def get? (r : Report) (kind : ResourceKind) (name : String) : Option Result :=
  r.results.find? fun x => x.kind == kind && x.name == name

/-- The results of a kind. -/
def ofKind (r : Report) (kind : ResourceKind) : List Result := r.results.filter (·.kind == kind)

/-- The names of a kind with an outcome. -/
def namesWith (r : Report) (kind : ResourceKind) (outcome : Outcome) : List String :=
  ((r.ofKind kind).filter (·.outcome == outcome)).map (·.name)

/-- How often each outcome occurs, in order of first occurrence. -/
def counts (r : Report) : List (Outcome × Nat) :=
  let outcomes := r.results.map (·.outcome)
  outcomes.eraseDups.map fun o => (o, outcomes.count o)

end Report

end VirtualTopology
