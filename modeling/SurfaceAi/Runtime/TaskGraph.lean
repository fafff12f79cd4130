import SurfaceAi.Core.Error
import SurfaceAi.Core.TypeId
import Mathlib.Data.List.Nodup

/-! The task graph and its executor: a depth-first walk over the nodes that remembers what
is completed, dispatches a node once everything it depends on has succeeded, and stops at
the first failure. What the stop token, the worker pools and the nodes' work answer is a
parameter, asked in order. -/

namespace SurfaceAi.Runtime

abbrev TaskId := UInt64

/-- A node; its work is part of the environment. -/
structure TaskNode where
  id : TaskId
  stageId : TypeId
  dependencies : List TaskId
  deriving DecidableEq

/-- The node map, in some order; no id is in it twice. -/
structure TaskGraph where
  nodes : List TaskNode
  nodup : (nodes.map TaskNode.id).Nodup

namespace TaskGraph

def empty : TaskGraph := ⟨[], List.nodup_nil⟩

def ids (graph : TaskGraph) : List TaskId := graph.nodes.map TaskNode.id

def addNode (graph : TaskGraph) (node : TaskNode) : Result TaskGraph :=
  if h : node.id ∈ graph.ids then
    fail .coreTypeAlreadyRegistered "task node id already added"
  else .ok ⟨node :: graph.nodes, List.nodup_cons.mpr ⟨h, graph.nodup⟩⟩

def nodeAt (graph : TaskGraph) (id : TaskId) : Result TaskNode :=
  match graph.nodes.find? fun node => node.id = id with
  | some node => .ok node
  | none => fail .runtimeNodeNotFound "task node id not found in graph"

end TaskGraph

/-- The answers to the `n`-th question: whether a stop is requested, whether a stage takes
a piece of work, and how a node's work ends. -/
structure Environment where
  stopRequested : ℕ → Bool
  submit : ℕ → TypeId → Result Unit
  work : ℕ → TaskId → Result Unit

/-- What happens in a run: a stop is seen before a node, a node is missing, a dispatch is
refused before the work runs, or the work runs. -/
inductive Event where
  | cancelled (e : ErrorInfo)
  | missing (id : TaskId) (e : ErrorInfo)
  | refused (id : TaskId) (e : ErrorInfo)
  | dispatched (id : TaskId) (result : Result Unit)

/-- What is completed, with its result, what has happened, and how often the environment
was asked. -/
structure Run where
  completed : List (TaskId × Result Unit)
  trace : List Event
  asked : ℕ

namespace Run

def log (s : Run) (e : Event) : Run := { s with trace := s.trace ++ [e] }

def ask (s : Run) : Run := { s with asked := s.asked + 1 }

/-- `completed.emplace`: what is there already stays. -/
def complete (s : Run) (id : TaskId) (result : Result Unit) : Run :=
  { s with completed := s.completed ++ [(id, result)] }

end Run

/-- `PipelineExecutor::Dispatch`. -/
def dispatch (env : Environment) (node : TaskNode) (s : Run) : Result Unit × Run :=
  if env.stopRequested s.asked then
    let e : ErrorInfo := ⟨.runtimeCancelled, "dispatch cancelled before submission"⟩
    (.error e, s.ask.log (.refused node.id e))
  else
    match env.submit s.ask.asked node.stageId with
    | .error e => (.error e, s.ask.ask.log (.refused node.id e))
    | .ok () =>
      let result := env.work s.ask.ask.asked node.id
      (result, s.ask.ask.ask.log (.dispatched node.id result))

/-- `EnsureEach`, given how to complete one node. -/
def ensureEach (ensureCompleted : TaskId → Run → Option (Result Unit × Run)) :
    List TaskId → Run → Option (Result Unit × Run)
  | [], s => some (.ok (), s)
  | id :: ids, s =>
    match ensureCompleted id s with
    | none => none
    | some (.error e, s) => some (.error e, s)
    | some (.ok (), s) => ensureEach ensureCompleted ids s

/-- `EnsureCompleted`, with a bound on how deep the walk goes. -/
def ensureCompleted (graph : TaskGraph) (env : Environment) :
    ℕ → TaskId → Run → Option (Result Unit × Run)
  | 0, _, _ => none
  | depth + 1, id, s =>
    match s.completed.lookup id with
    | some result => some (result, s)
    | none =>
      if env.stopRequested s.asked then
        let e : ErrorInfo := ⟨.runtimeCancelled, "task graph execution cancelled"⟩
        some (.error e, s.ask.log (.cancelled e))
      else
        match graph.nodeAt id with
        | .error e => some (.error e, (s.ask.complete id (.error e)).log (.missing id e))
        | .ok node =>
          match ensureEach (ensureCompleted graph env depth) node.dependencies s.ask with
          | none => none
          | some (.error e, s) => some (.error e, s.complete id (.error e))
          | some (.ok (), s) =>
            let r := dispatch env node s
            some (r.1, r.2.complete id r.1)

/-- `RunToCompletion`, with the node ids in the order the map gives them. -/
def runToCompletion (graph : TaskGraph) (env : Environment) (order : List TaskId) :
    Option (Result Unit × Run) :=
  ensureEach (ensureCompleted graph env (graph.nodes.length + 1)) order ⟨[], [], 0⟩

end SurfaceAi.Runtime
