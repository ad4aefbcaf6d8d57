import IpNdnStack.Impl.LibPcapHelper

/-!
# Packet handlers on one table

The branch for TCP and UDP of `deal`, run by several packet handlers at once on
one `MapCacheHelper<int>` (the thread pool that `handleRead` has in a comment).
`get`, `save` and `erase` each hold `insertMutex` for their whole body, so each
is one step; `getAndIncreaseSequence` calls them one by one, and its own mutex
only keeps out other calls of it. The tuples have their bytes, as those of
decoded TCP and UDP frames do.
-/

namespace IpNdn

/-- What a handler does next. -/
inductive Stage
  /-- `deal` calls `get` -/
  | get
  /-- `deal` calls `save` with the index 1 -/
  | save
  /-- `getAndIncreaseSequence` takes its mutex -/
  | lock
  /-- `getAndIncreaseSequence` calls `get` -/
  | getFirst
  /-- `getAndIncreaseSequence` calls `erase`; `get` returned `first` -/
  | erase (first : BitVec 32)
  /-- `getAndIncreaseSequence` calls `save` with `first + 1` -/
  | saveNext (first : BitVec 32)
  /-- the tuple went out with this index -/
  | published (index : BitVec 32)
  /-- `deal` returned on a failure, without the tuple -/
  | failed
  deriving DecidableEq, Repr

/-- The table, which handler has `getAndIncreaseSequenceMutex`, and each
handler's stage. -/
structure Handlers (ι : Type) where
  sequenceTable : MapCacheHelper (BitVec 32)
  owner : Option ι
  stage : ι → Stage

namespace Handlers

variable {ι : Type} [DecidableEq ι]

/-- No handler has begun. -/
def start : Handlers ι := ⟨.empty, none, fun _ => .get⟩

def goto (s : Handlers ι) (i : ι) (stage : Stage) : Handlers ι :=
  { s with stage := Function.update s.stage i stage }

/-- The next step of handler `i`, whose tuple is of the flow `f`; `none` if it
has to wait or has ended. The mutex is given back with the last step under it. -/
def step (f : Flow) (s : Handlers ι) (i : ι) : Option (Handlers ι) :=
  match s.stage i with
  | .get =>
    match s.sequenceTable.get f.key with
    | none => some (s.goto i .save)
    | some _ => some (s.goto i .lock)
  | .save =>
    let (table, resultSeq) := s.sequenceTable.save f.key 1
    some ({ s with sequenceTable := table }.goto i (if resultSeq then .published 1 else .failed))
  | .lock =>
    match s.owner with
    | none => some ({ s with owner := some i }.goto i .getFirst)
    | some _ => none
  | .getFirst =>
    match s.sequenceTable.get f.key with
    | none => some ({ s with owner := none }.goto i .failed)
    | some first => some (s.goto i (.erase first))
  | .erase first => some ({ s with sequenceTable := s.sequenceTable.erase f.key }.goto i (.saveNext first))
  | .saveNext first =>
    let (table, success) := s.sequenceTable.save f.key (first + 1)
    some ({ s with sequenceTable := table, owner := none }.goto i
      (if success then .published (first + 1) else .failed))
  | .published _ | .failed => none

/-- One step of one handler. -/
def Step (flow : ι → Flow) (s : Handlers ι) (i : ι) (s' : Handlers ι) : Prop := s.step (flow i) i = some s'

end Handlers

end IpNdn
