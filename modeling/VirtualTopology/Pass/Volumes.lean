import VirtualTopology.Pass.Started

/-!
# Pools and their volumes

A pool is brought in line like a network, and its volumes one after the other behind it. A volume is
created, deleted or grown; it is never shrunk and never converted to another format, so what would
need that is refused. If the pool fails, its volumes fail with it.
-/

namespace VirtualTopology

namespace VolumeEntry

/-- The label of the volume of an entry. -/
def label (e : VolumeEntry) (pool : String) : String := volumeLabel pool e.name

/-- The result of the volume of an entry. -/
def done (e : VolumeEntry) (pool : String) (outcome : Outcome) (details : List String := []) :
    Result :=
  { kind := .volume, name := e.label pool, outcome, details }

/-- What a stored document says, or the failure to read it. -/
def parsed (document : String) : Work Element :=
  match Element.read? document with
  | some e => pure e
  | none => throw (.failed .read "Unreadable live definition: malformed document" .operational)

/-- Bring a volume that is there in line with its declaration. -/
def adjust (e : VolumeEntry) (dry : Bool) (pool : String) (v : Volume) : Work Result := do
  let stored ← parsed (← Work.attempt .read (.readVolume pool e.name))
  let there := (stored.volumeFormat?).getD v.format
  if there ≠ v.format then
    Work.refuse .read
      ("Volume format is " ++ there ++ ", declared " ++ v.format ++
        "; volumes are never converted")
  let wanted := v.capacity.toBytes
  match stored.volumeCapacity? with
  | none => return e.done pool .unchanged
  | some size =>
      if size = wanted then return e.done pool .unchanged
      if wanted < size then
        Work.refuse .read (← Work.stating [size, wanted]
          s!"Volume is {size} bytes, declared {wanted}; volumes are never shrunk")
      Work.change dry .resize (.resizeVolume pool e.name wanted)
      return e.done pool .updated
        [← Work.stating [size, wanted] s!"grown from {size} to {wanted} bytes"]

/-- Bring the volume of an entry in line. -/
def sync (e : VolumeEntry) (dry : Bool) (pool : String) (exists_ : Bool) : Work Result := do
  if e.present then
    match e.volume with
    | none => return e.done pool .unchanged
    | some v =>
        if exists_ then e.adjust dry pool v
        else
          let text ← Work.writing v.written
          Work.change dry .create (.createVolume pool text)
          return e.done pool .created
  else if exists_ then
    Work.change dry .delete (.deleteVolume pool e.name)
    return e.done pool .deleted
  else return e.done pool .unchanged

end VolumeEntry

namespace Pool

/-- The failures of all volumes of a pool. -/
def volumesFailed (p : Pool) (operation : Operation) (reason : String) (kind : FailureKind) :
    List Result :=
  p.volumes.map fun e => .stuck .volume (e.label p.name) operation reason kind

/-- The failures of all volumes of a pool that failed itself. -/
def volumesLost (p : Pool) : List Result :=
  p.volumesFailed .read ("pool " ++ p.name ++ " failed") .dependencyFailed

/-- Work on volumes one after the other. Behind one that cannot be written the rest is left
out. -/
def syncVolumes (p : Pool) (dry : Bool) (there : List String) :
    List VolumeEntry → Talk Recorded
  | [] => pure (.ok [])
  | e :: es => do
      let ending ← supervise .volume (e.label p.name)
        (e.sync dry p.name (there.contains e.name))
      match ending.recorded with
      | .error why => pure (.error why)
      | .ok r => do
          let rs ← p.syncVolumes dry there es
          pure (rs.map (r ++ ·))

/-- Bring the volumes of a pool in line. In a pool that cannot be read nothing is there yet. -/
def syncContents (p : Pool) (dry readable : Bool) : Talk Recorded := do
  if p.volumes.isEmpty then return .ok []
  if readable then
    match ← (Call.listVolumes p.name).ask with
    | .ok there => p.syncVolumes dry there p.volumes
    | .error e => return .ok (p.volumesFailed .list e.message .operational)
  else p.syncVolumes dry [] p.volumes

/-- Bring a pool in line, and its volumes behind it. -/
def task (p : Pool) (dry exists_ : Bool) : Talk Recorded := do
  match ← supervise .pool p.name (p.started.sync dry exists_) with
  | .finished (r, readable) =>
      let rs ← p.syncContents dry readable
      return rs.map (r :: ·)
  | .failed r => return .ok (r :: p.volumesLost)
  | .cancelled r =>
      return .ok (r :: p.volumes.map fun e => .cancelled .volume (e.label p.name))
  | .unwritable why => return .error why

end Pool

/-- Bring a network in line. -/
def Network.task (n : Network) (dry exists_ : Bool) : Talk Recorded := do
  let ending ← supervise .network n.name ((·.1) <$> n.started.sync dry exists_)
  return ending.recorded

end VirtualTopology
