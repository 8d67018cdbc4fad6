/-
  `_SubscriptionGuards` (`_internal/protocol.py`): a task that enters `hold` registers with the
  guard of each of its filters, takes their locks in the order of the filters, and gives
  everything back when it leaves or is cancelled.

  Guards are objects: `_guards` names the live one of a filter, and a task keeps the objects it
  registered with. An `asyncio.Lock` is a first-in, first-out mutex: a lock that is released
  belongs to the first task that waits for it, which runs later.
-/
import Zmqtt.Lib.Dict
import Zmqtt.Lib.Machine

namespace Zmqtt

/-- `_SubscriptionGuard`; tasks are named by their number. -/
structure SubscriptionGuard where
  users : Nat := 0
  holder : Option Nat := none
  waiters : List Nat := []
  deriving Repr, DecidableEq

/-- Where a task is: in the loop over the locks, inside the `async with` block, or out. -/
inductive HoldStage where
  | waiting
  | inside
  | left
  deriving Repr, DecidableEq

/-- A task in `hold`: `entries` with the guard object of each filter, of which the first
    `acquired` are locked. -/
structure HoldTask where
  entries : List (String × Nat)
  acquired : Nat := 0
  stage : HoldStage := .waiting
  deriving Repr, DecidableEq

/-- `_SubscriptionGuards`, every guard object made so far, and every task. -/
structure SubscriptionGuards where
  guards : Dict String Nat := []
  objects : List SubscriptionGuard := []
  tasks : List HoldTask := []
  deriving Repr, DecidableEq

namespace SubscriptionGuard

/-- `lock.release()`. -/
def release (g : SubscriptionGuard) : SubscriptionGuard :=
  { g with holder := g.waiters.head?, waiters := g.waiters.tail }

/-- A task that is cancelled in `lock.acquire()` leaves the queue; a lock it was just given
    goes to the next. -/
def withdraw (g : SubscriptionGuard) (k : Nat) : SubscriptionGuard :=
  if g.holder = some k then g.release else { g with waiters := g.waiters.erase k }

end SubscriptionGuard

namespace SubscriptionGuards

/-- `sorted(set(filters))`. -/
def sortedSet (filters : List String) : List String :=
  filters.dedup.insertionSort fun a b => a ≤ b

/-- A guard object changes. -/
def modifyGuard (g : SubscriptionGuards) (o : Nat) (change : SubscriptionGuard → SubscriptionGuard) :
    SubscriptionGuards :=
  { g with objects := g.objects.modify o change }

/-- `self._guards.setdefault(filter_, _SubscriptionGuard())` and `guard.users += 1`. -/
def register (g : SubscriptionGuards) (filter : String) : SubscriptionGuards × Nat :=
  match g.guards.get? filter with
  | some o => (g.modifyGuard o fun guard => { guard with users := guard.users + 1 }, o)
  | none =>
      let o := g.objects.length
      ({ g with guards := g.guards.set filter o, objects := g.objects ++ [{ users := 1 }] }, o)

/-- The first loop of `hold`. -/
def registerAll (g : SubscriptionGuards) : List String → SubscriptionGuards × List (String × Nat)
  | [] => (g, [])
  | filter :: filters =>
      let (g, o) := g.register filter
      let (g, entries) := g.registerAll filters
      (g, (filter, o) :: entries)

/-- The loop over the locks from `acquired` on: task `k` takes those that are free and queues
    for the first that is not. -/
def acquireFrom (g : SubscriptionGuards) (k : Nat) :
    List (String × Nat) → Nat → SubscriptionGuards × Nat × HoldStage
  | [], acquired => (g, acquired, .inside)
  | (_, o) :: entries, acquired =>
      match g.objects[o]? with
      | none => (g, acquired, .waiting)
      | some guard =>
          if guard.holder.isNone then
            (g.modifyGuard o fun guard => { guard with holder := some k }).acquireFrom k entries
              (acquired + 1)
          else
            (g.modifyGuard o fun guard => { guard with waiters := guard.waiters ++ [k] }, acquired,
              .waiting)

/-- Task `k` goes on in the loop over the locks. -/
def advance (g : SubscriptionGuards) (k : Nat) (task : HoldTask) : SubscriptionGuards :=
  let (g, acquired, stage) := g.acquireFrom k (task.entries.drop task.acquired) task.acquired
  { g with tasks := g.tasks.set k { task with acquired, stage } }

/-- A new task enters `hold`, up to its first wait. -/
def hold (g : SubscriptionGuards) (filters : List String) : SubscriptionGuards :=
  let k := g.tasks.length
  let (g, entries) := g.registerAll (sortedSet filters)
  let task : HoldTask := { entries }
  { g with tasks := g.tasks ++ [task] }.advance k task

/-- Task `k` runs after the lock it waited for was handed to it. -/
def resume (g : SubscriptionGuards) (k : Nat) : SubscriptionGuards :=
  match g.tasks[k]? with
  | none => g
  | some task =>
      match task.stage, task.entries[task.acquired]? with
      | .waiting, some (_, o) =>
          if (g.objects[o]?).any fun guard => guard.holder = some k then
            g.advance k { task with acquired := task.acquired + 1 }
          else g
      | _, _ => g

/-- `guard.users -= 1`, and the guard is dropped when nobody is left. -/
def deregister (g : SubscriptionGuards) (entry : String × Nat) : SubscriptionGuards :=
  let g := g.modifyGuard entry.2 fun guard => { guard with users := guard.users - 1 }
  if (g.objects[entry.2]?).any fun guard => guard.users = 0 then
    { g with guards := g.guards.pop entry.1 }
  else g

/-- The `finally` block of `hold`. -/
def leave (g : SubscriptionGuards) (k : Nat) (task : HoldTask) : SubscriptionGuards :=
  let g := (task.entries.take task.acquired).reverse.foldl
    (fun g entry => g.modifyGuard entry.2 SubscriptionGuard.release) g
  let g := task.entries.foldl deregister g
  { g with tasks := g.tasks.set k { task with acquired := 0, stage := .left } }

/-- Task `k` leaves the block. -/
def exit (g : SubscriptionGuards) (k : Nat) : SubscriptionGuards :=
  match g.tasks[k]? with
  | some task => if task.stage = .inside then g.leave k task else g
  | none => g

/-- Task `k` is cancelled while it waits for a lock. -/
def cancel (g : SubscriptionGuards) (k : Nat) : SubscriptionGuards :=
  match g.tasks[k]? with
  | none => g
  | some task =>
      match task.stage, task.entries[task.acquired]? with
      | .waiting, some (_, o) => (g.modifyGuard o fun guard => guard.withdraw k).leave k task
      | _, _ => g

/-- Task `k` is inside its block. -/
def isInside (g : SubscriptionGuards) (k : Nat) : Bool :=
  (g.tasks[k]?).any fun task => task.stage = .inside

/-- Task `k` holds the guard of a filter. -/
def holds (g : SubscriptionGuards) (k : Nat) (filter : String) : Bool :=
  (g.tasks[k]?).any fun task => ((task.entries.take task.acquired).map Prod.fst).contains filter

end SubscriptionGuards

end Zmqtt
