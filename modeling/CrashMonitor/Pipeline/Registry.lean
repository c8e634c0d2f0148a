import CrashMonitor.Pipeline.Finalize

/-!
# Plugin registration

`finish_registration` of `pipeline/mod.rs`: every category is put into a
stable dependency order, and the registry is then validated as a whole
(`config.rs`). Plugin ids are names.
-/

namespace CrashMonitor.Pipeline

/-! ## Validation -/

inductive PluginCategory where
  | filter
  | collector
  | preProcessor
  | postProcessor
  | notifier
  deriving DecidableEq, Repr

inductive DependencyKind where
  | hard
  | orderOnly
  deriving DecidableEq, Repr

/-- The errors of `ConfigValidationError` that registration can return. -/
inductive ConfigValidationError where
  | duplicatePluginId (pluginId : String) (firstCategory secondCategory : PluginCategory)
  | missingDependency (category : PluginCategory) (pluginId dependency : String)
      (kind : DependencyKind)
  | dependencyCycle (category : PluginCategory) (cycle : List String)
  | invalidDependencyOrder (category : PluginCategory) (pluginId dependency : String)
      (kind : DependencyKind)
  deriving DecidableEq, Repr

structure PluginGraphNode where
  id : String
  hardDependencies : List String
  orderDependencies : List String
  deriving DecidableEq, Repr

/-- The dependencies of a node with their kinds, hard ones first. -/
def PluginGraphNode.dependencies (node : PluginGraphNode) : List (String × DependencyKind) :=
  node.hardDependencies.map (·, .hard) ++ node.orderDependencies.map (·, .orderOnly)

/-- The entry of a node in `indexes`. -/
def indexOf (nodes : List PluginGraphNode) (id : String) : Option Nat := nodes.findIdx? (·.id = id)

inductive VisitState where
  | unvisited
  | onStack
  | finished
  deriving DecidableEq, Repr

/-- The mutable part of the cycle search. -/
structure Search where
  states : List VisitState
  stack : List Nat

def Search.mark (search : Search) (index : Nat) (state : VisitState) : Search :=
  { search with states := search.states.set index state }

section Cycles

variable (nodes : List PluginGraphNode)

def nodeId (index : Nat) : String := (nodes[index]?.map (·.id)).getD ""

/-- The cycle that a dependency on the stack closes. -/
def closeCycle (stack : List Nat) (dependency : Nat) : List String :=
  let start := (stack.findIdx? (· = dependency)).getD 0
  (stack.drop start).map (nodeId nodes) ++ [nodeId nodes dependency]

/-- The loop over the dependencies of one node. -/
def visitDependencies (visit : Nat → Search → Option (List String) × Search) :
    List String → Search → Option (List String) × Search
  | [], search => (none, search)
  | dependency :: rest, search =>
    match indexOf nodes dependency with
    | none => visitDependencies visit rest search
    | some index =>
      match search.states.getD index .finished with
      | .unvisited =>
        match visit index search with
        | (some cycle, search) => (some cycle, search)
        | (none, search) => visitDependencies visit rest search
      | .onStack => (some (closeCycle nodes search.stack index), search)
      | .finished => visitDependencies visit rest search

/-- `visit` of `find_dependency_cycle`. Every nested call enters a node that
was not visited yet, so the number of nodes bounds the depth. -/
def visitNode : (depth : Nat) → Nat → Search → Option (List String) × Search
  | 0, _, search => (none, search)
  | depth + 1, index, search =>
    let search := { search.mark index .onStack with stack := search.stack ++ [index] }
    let dependencies := (nodes[index]?.map fun node =>
      node.hardDependencies ++ node.orderDependencies).getD []
    match visitDependencies nodes (visitNode depth) dependencies search with
    | (some cycle, search) => (some cycle, search)
    | (none, search) => (none, { search.mark index .finished with stack := search.stack.dropLast })

/-- The outer loop over all nodes. -/
def searchFrom : List Nat → Search → Option (List String)
  | [], _ => none
  | index :: rest, search =>
    if search.states.getD index .finished = .unvisited then
      match visitNode nodes nodes.length index search with
      | (some cycle, _) => some cycle
      | (none, search) => searchFrom rest search
    else searchFrom rest search

/-- `find_dependency_cycle`. -/
def findDependencyCycle : Option (List String) := searchFrom nodes (List.range nodes.length)
    ⟨List.replicate nodes.length .unvisited, []⟩

end Cycles

section Graph

variable (category : PluginCategory) (nodes : List PluginGraphNode)
  (requireOrderDependencies : Bool)

/-- No id twice in a category. -/
def checkCategoryIds : List PluginGraphNode → List String → Except ConfigValidationError Unit
  | [], _ => .ok ()
  | node :: rest, seen =>
    if node.id ∈ seen then .error (.duplicatePluginId node.id category category)
    else checkCategoryIds rest (node.id :: seen)

/-- The first dependency that the category does not have. -/
def missingDependency (node : PluginGraphNode) : Option (String × DependencyKind) :=
  node.dependencies.find? fun dependency =>
    (dependency.2 = .hard ∨ requireOrderDependencies) ∧ (indexOf nodes dependency.1).isNone

/-- The first dependency that does not stand before the node. -/
def misplacedDependency (index : Nat) (node : PluginGraphNode) : Option (String × DependencyKind) :=
  node.dependencies.find? fun dependency =>
    (indexOf nodes dependency.1).any fun dependencyIndex => index ≤ dependencyIndex

/-- `validate_plugin_graph_with_policy`. -/
def validatePluginGraphWithPolicy : Except ConfigValidationError Unit := do
  checkCategoryIds category nodes []
  match nodes.findSome? fun node =>
      (missingDependency nodes requireOrderDependencies node).map (node, ·) with
  | some (node, dependency, kind) => throw (.missingDependency category node.id dependency kind)
  | none =>
    match findDependencyCycle nodes with
    | some cycle => throw (.dependencyCycle category cycle)
    | none =>
      match nodes.zipIdx.findSome? fun entry =>
          (misplacedDependency nodes entry.2 entry.1).map (entry.1, ·) with
      | some (node, dependency, kind) =>
        throw (.invalidDependencyOrder category node.id dependency kind)
      | none => pure ()

end Graph

/-- The ids of all categories, each of which may occur once. -/
def checkRegistryIds : List (PluginCategory × String) → List (String × PluginCategory) →
    Except ConfigValidationError Unit
  | [], _ => .ok ()
  | (category, id) :: rest, seen =>
    match seen.lookup id with
    | some first => .error (.duplicatePluginId id first category)
    | none => checkRegistryIds rest ((id, category) :: seen)

variable (categories : List (PluginCategory × List PluginGraphNode))

/-- The category an id is registered in. -/
def categoryOf (id : String) : Option PluginCategory :=
  (categories.find? fun entry => entry.2.any (·.id = id)).map (·.1)

/-- The first dependency that another category has. -/
def foreignDependency (category : PluginCategory) (node : PluginGraphNode) :
    Option (String × DependencyKind) := node.dependencies.find? fun dependency =>
    (categoryOf categories dependency.1).any (· ≠ category)

/-- The loop of the registry validation over the categories. -/
def validateCategories (categories : List (PluginCategory × List PluginGraphNode))
    (requireOrderDependencies : Bool) :
    List (PluginCategory × List PluginGraphNode) → Except ConfigValidationError Unit
  | [] => .ok ()
  | (category, nodes) :: rest => do
    match nodes.findSome? fun node =>
        (foreignDependency categories category node).map (node, ·) with
    | some (node, dependency, kind) => throw (.missingDependency category node.id dependency kind)
    | none =>
      validatePluginGraphWithPolicy category nodes requireOrderDependencies
      validateCategories categories requireOrderDependencies rest

/-- `validate_plugin_registry_with_policy`. -/
def validatePluginRegistryWithPolicy (requireOrderDependencies : Bool) :
    Except ConfigValidationError Unit := do
  checkRegistryIds (categories.flatMap fun entry => entry.2.map (entry.1, ·.id)) []
  validateCategories categories requireOrderDependencies categories

/-! ## Order -/

def Priority.rank : Priority → Nat
  | .critical => 0
  | .high => 1
  | .medium => 2
  | .low => 3

def postProcessorPhaseRank : PostProcessorPhase → Nat
  | .beforeCommit => 0
  | .afterCommit => 1
  | .afterNotify => 2
  | .finalCleanup => 3

section Order

variable {P : Type} (plugin : P → Plugin) (phaseRank : P → Nat)

/-- `Plugin::dependencies`. -/
def Plugin.dependencies (p : Plugin) : List String := p.hardDependencies ++ p.orderAfter

/-- Whether a plugin waits for none of those that remain. -/
def isReady (remaining : List (Nat × P)) (p : P) : Bool :=
  (plugin p).dependencies.all fun dependency =>
    !remaining.any fun pending => (plugin pending.2).name = dependency

/-- The key plugins are chosen by. -/
def orderKey (entry : Nat × P) : Nat × Nat × Nat :=
  (phaseRank entry.2, (plugin entry.2).priority.rank, entry.1)

def keyLt (a b : Nat × Nat × Nat) : Bool :=
  a.1 < b.1 || (a.1 = b.1 && (a.2.1 < b.2.1 || (a.2.1 = b.2.1 && a.2.2 < b.2.2)))

/-- `min_by_key`. -/
def leastEntry : List (Nat × P) → Option (Nat × P)
  | [] => none
  | entry :: rest =>
    match leastEntry rest with
    | none => some entry
    | some other =>
      if keyLt (orderKey plugin phaseRank other) (orderKey plugin phaseRank entry)
      then some other else some entry

/-- The `while` loop; each round places one plugin. -/
def orderLoop : (rounds : Nat) → List (Nat × P) → List P
  | 0, remaining => remaining.map (·.2)
  | rounds + 1, remaining =>
    match leastEntry plugin phaseRank
        (remaining.filter fun entry => isReady plugin remaining entry.2) with
    | none => remaining.map (·.2)
    | some candidate => candidate.2 :: orderLoop rounds (remaining.filter (·.1 ≠ candidate.1))

/-- `stable_plugin_order`. -/
def stablePluginOrder (plugins : List P) : List P := orderLoop plugin phaseRank plugins.length
    (plugins.zipIdx.map fun entry => (entry.2, entry.1))

end Order

/-! ## Registration -/

/-- `plugin_graph_nodes`. -/
def pluginGraphNode (p : Plugin) : PluginGraphNode := ⟨p.name, p.hardDependencies, p.orderAfter⟩

variable {W E : Type}

/-- The post-processors that depend on one of a later phase. -/
def laterPhaseDependency (processors : List (PostProcessor W)) : Option ConfigValidationError :=
  processors.findSome? fun processor =>
    (pluginGraphNode processor.toPlugin).dependencies.findSome? fun dependency =>
      if (processors.find? (·.name = dependency.1)).any fun required =>
          postProcessorPhaseRank processor.phase < postProcessorPhaseRank required.phase
      then some (.invalidDependencyOrder .postProcessor processor.name dependency.1 dependency.2)
      else none

/-- `validate_dependencies`. -/
def validateDependencies (pipeline : Pipeline W E) : Except ConfigValidationError Unit := do
  validatePluginRegistryWithPolicy [
    (.filter, pipeline.filters.map fun p => pluginGraphNode p.toPlugin),
    (.collector, pipeline.collectors.map fun p => pluginGraphNode p.toPlugin),
    (.preProcessor, pipeline.preProcessors.map fun p => pluginGraphNode p.toPlugin),
    (.postProcessor, pipeline.postProcessors.map fun p => pluginGraphNode p.toPlugin),
    (.notifier, pipeline.notifiers.map fun p => pluginGraphNode p.toPlugin)] false
  match laterPhaseDependency pipeline.postProcessors with
  | some error => throw error
  | none => pure ()

/-- The registry with every category in its stable order. -/
def ordered (pipeline : Pipeline W E) : Pipeline W E := { pipeline with
    filters := stablePluginOrder (·.toPlugin) (fun _ => 0) pipeline.filters
    collectors := stablePluginOrder (·.toPlugin) (fun _ => 0) pipeline.collectors
    preProcessors := stablePluginOrder (·.toPlugin) (fun _ => 0) pipeline.preProcessors
    postProcessors := stablePluginOrder (·.toPlugin)
      (fun p => postProcessorPhaseRank p.phase) pipeline.postProcessors
    notifiers := stablePluginOrder (·.toPlugin) (fun _ => 0) pipeline.notifiers }

/-- `finish_registration`. -/
def finishRegistration (pipeline : Pipeline W E) : Except ConfigValidationError (Pipeline W E) := do
  validateDependencies pipeline.ordered
  return pipeline.ordered

end CrashMonitor.Pipeline
