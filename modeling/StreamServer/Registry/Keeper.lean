/-
Somebody who keeps a registry: what they can do with it, at what time, and
what they learn. A held job runs until it is told to end.
-/
import StreamServer.Registry

namespace StreamServer.Registry

/-- A registry in somebody's hands. -/
structure Keeper where
  registry : Registry
  /-- Sessions whose jobs wait to be told to end. -/
  held : List SessionId
  clock : Instant
  log : Log

/-- A job: it ends some time after its start, or waits to be told to. -/
inductive Job where
  | ends (ms : Nat) (ending : Ending)
  | held
deriving DecidableEq, Repr

/-- What the keeper does. -/
inductive Call where
  | allocate
  /-- Starts a job and tracks its session, under a number of its own or a given one. -/
  | start (job : Job) (id : Option SessionId)
  /-- Tells a held job to end. -/
  | release (id : SessionId) (status : Int)
  | advance (ms : Nat)
  | sweep
  | check
  | contains (id : SessionId)
  /-- Waits for all sessions; held jobs are told to end so many milliseconds after. -/
  | drain (releases : List (SessionId × Nat × Int))
deriving DecidableEq, Repr

/-- What the keeper learns. -/
inductive Reply where
  | done
  | truth (b : Bool)
  | name (id : SessionId)
  | inserted (id : SessionId)
  | duplicate (id : SessionId)
  | count (n : Nat)
  | checked (r : Except SessionError Unit)
  | drained (joined ms : Nat)
  /-- Waiting was given up. -/
  | blocked

/-- When and how a job ends that starts at `now`. -/
def Job.ending (now : Instant) : Job → Option (Instant × Ending)
  | .ends ms ending => some (now + ms, ending)
  | .held => none

namespace Keeper

/-- Nothing is tracked. -/
def start (cap : Option UInt32) : Keeper := ⟨.empty cap, [], 0, []⟩

/-- A held job ends. -/
def release (k : Keeper) (id : SessionId) (t : Instant) (status : Int) : Keeper :=
  if id ∈ k.held then
    { k with
      registry := k.registry.endSession id t (.exited status)
      held := k.held.filter (· ≠ id) }
  else k

/-- Starts a job and tracks its session. -/
def startJob (k : Keeper) (job : Job) (id : Option SessionId) : Reply × Keeper :=
  let (id, registry) := match id with
    | some id => (id, k.registry)
    | none => k.registry.allocate
  let k := { k with registry := registry, log := k.log ++ [Session.startEntry id k.clock] }
  match registry.insert (Session.start id k.clock (job.ending k.clock)) with
  | .ok registry =>
    (.inserted id,
      { k with registry := registry, held := if job = .held then k.held ++ [id] else k.held })
  | .error s => (.duplicate s.id, k)

/-- Waits for all sessions, at most for `patience`. -/
def drain (patience : Nat) (k : Keeper) (releases : List (SessionId × Nat × Int)) :
    Reply × Keeper :=
  let k := releases.foldl (fun k (id, ms, status) => k.release id (k.clock + ms) status) k
  let (d, registry) := k.registry.drain k.clock
  let limit := k.clock + patience
  let log := k.log ++ d.log.upTo limit
  match d.time.filter (· ≤ limit) with
  | some t =>
    (.drained k.registry.size (t - k.clock),
      { k with registry := registry, clock := t, log := log })
  | none => (.blocked, { k with registry := registry, clock := limit, log := log })

/-- Does something. -/
def perform (patience : Nat) (k : Keeper) : Call → Reply × Keeper
  | .allocate =>
    let (id, registry) := k.registry.allocate
    (.name id, { k with registry := registry })
  | .start job id => k.startJob job id
  | .release id status => (.truth (id ∈ k.held), k.release id k.clock status)
  | .advance ms => (.done, { k with clock := k.clock + ms })
  | .sweep =>
    let sweep := k.registry.sweep k.clock
    (.count sweep.gone.length, { k with registry := sweep.registry, log := k.log ++ sweep.log })
  | .check => (.checked (k.registry.checkCapacity k.clock), k)
  | .contains id => (.truth (k.registry.contains id), k)
  | .drain releases => k.drain patience releases

end Keeper

end StreamServer.Registry
