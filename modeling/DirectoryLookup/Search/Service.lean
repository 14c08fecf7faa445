import DirectoryLookup.Search.Searcher
import DirectoryLookup.Search.Together

/-!
# Searchers in use

A searcher serves any number of searches. Each becomes a task when it is asked for, and the tasks
take turns in any order, one call to a client at a turn. Shared between them are the searcher, which
nothing changes, and the factory that makes their clients: a task gets the next client that is made
when its first turn comes, so which one it gets depends on the turns of the others.
-/

namespace DirectoryLookup.Search

/-- What happens to a searcher. -/
inductive Move
  /-- It is asked for a search. -/
  | spawn (query : Option Expression) (limit : UInt32)
  /-- It is the turn of a task. -/
  | turn (task : Nat)

/-- The move is a turn of this task. -/
def Move.isTurnOf (task : Nat) : Move → Bool
  | .turn i => i == task
  | .spawn _ _ => false

/-- A search that was asked for. -/
inductive Task
  /-- It has had no turn. -/
  | waiting (query : Option Expression) (limit : UInt32)
  /-- It has failed before it needed a client. -/
  | refused (failure : Failure)
  /-- Its session is the one with the client of this number. -/
  | begun (client : Nat)

/-- The number of the client that a task has got. -/
def Task.client? : Task → Option Nat
  | .begun client => some client
  | _ => none

/-- The tasks of a searcher, and the sessions of those that have a client. -/
structure Service where
  /-- In the order in which they were asked for. -/
  tasks : List Task
  /-- In the order in which their clients were made. -/
  sessions : Sessions

namespace Service

/-- The number of the client of a task. -/
def client? (v : Service) (task : Nat) : Option Nat :=
  v.tasks[task]?.bind Task.client?

/-- The calls that the client of a task has seen. -/
def calls (v : Service) (task : Nat) : List Call :=
  match (v.client? task).bind (v.sessions[·]?) with
  | some session => session.calls
  | none => []

/-- The outcome of a task, once there is one. -/
def outcome? (v : Service) (task : Nat) : Option Outcome :=
  match v.tasks[task]? with
  | some (.refused failure) => some (.error failure)
  | some (.begun client) => v.sessions[client]?.bind Session.outcome?
  | _ => none

variable (s : Searcher) (factory : Nat → Client)

/-- The service after the turn of a task. At the first turn the settings are checked, then the next
client is made and gets its first call. -/
def turn (v : Service) (task : Nat) : Service :=
  match v.tasks[task]? with
  | some (.waiting query limit) =>
    match s.settings.validate with
    | .error failure => { v with tasks := v.tasks.set task (.refused failure) }
    | .ok () =>
      let client := v.sessions.length
      { tasks := v.tasks.set task (.begun client)
        sessions := v.sessions ++ [(s.start query limit (factory client)).step] }
  | some (.begun client) => { v with sessions := v.sessions.stepAt client }
  | _ => v

/-- The service after a move. -/
def move (v : Service) : Move → Service
  | .spawn query limit => { v with tasks := v.tasks ++ [.waiting query limit] }
  | .turn task => v.turn s factory task

end Service

/-- A searcher after all that has happened to it. -/
def Searcher.serve (s : Searcher) (factory : Nat → Client) (history : List Move) : Service :=
  history.foldl (Service.move s factory) ⟨[], []⟩

end DirectoryLookup.Search
