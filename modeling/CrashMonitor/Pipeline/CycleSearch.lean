import CrashMonitor.Lib.Precedence
import CrashMonitor.Pipeline.Registry
import Mathlib.Data.List.Nodup

/-!
# The search for dependency cycles

`find_dependency_cycle` of `config.rs` is a three-colour depth-first search
with an explicit stack. Its invariant is that the stack is a path of the
dependency graph and that no walk from a finished node goes on for ever. A
search that reports nothing has finished every node, and one that reports a
cycle closed a part of its stack.
-/

namespace CrashMonitor.Pipeline

open Precedence Search List

/-! ## The dependency graph -/

/-- The ids of the nodes of a category. -/
def nodeIds (nodes : List PluginGraphNode) : List String := nodes.map (·.id)

/-- All dependencies that a node declares. -/
def PluginGraphNode.declared (node : PluginGraphNode) : List String :=
  node.hardDependencies ++ node.orderDependencies

/-- A plugin of the category declares a dependency on another one of it. -/
def DependsOn (nodes : List PluginGraphNode) (id dependency : String) : Prop :=
  (∃ node ∈ nodes, node.id = id ∧ dependency ∈ node.declared) ∧ dependency ∈ nodeIds nodes

/-- Every dependency that the policy requires is in the category. -/
def RequiredPresent (requireOrderDependencies : Bool) (nodes : List PluginGraphNode) : Prop :=
  ∀ node ∈ nodes,
    (∀ dependency ∈ node.hardDependencies, dependency ∈ nodeIds nodes) ∧ (requireOrderDependencies →
      ∀ dependency ∈ node.orderDependencies, dependency ∈ nodeIds nodes)

/-- Every present dependency stands strictly before its dependent. -/
def DependenciesFirst (nodes : List PluginGraphNode) : Prop :=
  ∀ (i j : Nat) (node other : PluginGraphNode), nodes[i]? = some node → nodes[j]? = some other →
    other.id ∈ node.declared → j < i

section Graph

variable {nodes : List PluginGraphNode}
variable {node : PluginGraphNode}

theorem indexOf_isNone_iff {id} : (indexOf nodes id).isNone = true ↔ id ∉ nodeIds nodes := by
  simp only [indexOf, Option.isNone_iff_eq_none, findIdx?_eq_none_iff, nodeIds,
    mem_map, decide_eq_false_iff_not]
  constructor
  · rintro h ⟨node, hnode, hid⟩
    exact h node hnode hid
  · intro h node hnode hid
    exact h ⟨node, hnode, hid⟩

theorem indexOf_eq_some {id index} (h : indexOf nodes id = some index) :
    ∃ node, nodes[index]? = some node ∧ node.id = id := by
  obtain ⟨hlt, hid, -⟩ := findIdx?_eq_some_iff_getElem.mp h
  exact ⟨nodes[index], getElem?_eq_getElem hlt, by simpa using hid⟩

/-- With unique ids, the entry of `indexes` is the position of the node. -/
theorem indexOf_of_nodup (hunique : (nodeIds nodes).Nodup) {index}
    (h : nodes[index]? = some node) : indexOf nodes node.id = some index := by
  have hmem : node.id ∈ nodeIds nodes := mem_map_of_mem (mem_of_getElem? h)
  cases hfound : indexOf nodes node.id with
  | none => exact absurd hmem (indexOf_isNone_iff.mp (by simp [hfound]))
  | some other =>
    obtain ⟨node', hnode', hid⟩ := indexOf_eq_some hfound
    have hi : (nodeIds nodes)[index]? = some node.id := by simp [nodeIds, h]
    have hj : (nodeIds nodes)[other]? = some node.id := by simp [nodeIds, hnode', hid]
    have hlt : other < (nodeIds nodes).length := (List.getElem?_eq_some_iff.mp hj).1
    rw [(getElem?_inj hlt hunique).mp (hj.trans hi.symm)]

theorem mem_dependencies {dependency kind} :
    (dependency, kind) ∈ node.dependencies ↔
      match kind with
      | .hard => dependency ∈ node.hardDependencies
      | .orderOnly => dependency ∈ node.orderDependencies := by
  cases kind <;> simp [PluginGraphNode.dependencies]

theorem mem_declared {dependency} :
    dependency ∈ node.declared ↔ ∃ kind, (dependency, kind) ∈ node.dependencies := by
  simp only [PluginGraphNode.declared, mem_append, mem_dependencies]
  constructor
  · rintro (h | h)
    · exact ⟨.hard, h⟩
    · exact ⟨.orderOnly, h⟩
  rintro ⟨kind, h⟩
  cases kind with
  | hard => exact .inl h
  | orderOnly => exact .inr h

/-- A category in dependency order has no cycle. -/
theorem DependenciesFirst.not_hasCycle (hunique : (nodeIds nodes).Nodup)
    (h : DependenciesFirst nodes) : ¬ HasCycle (DependsOn nodes) := by
  refine not_hasCycle_of_position (fun id => (indexOf nodes id).getD 0) ?_
  rintro id dependency ⟨⟨node, hnode, rfl, hdeclared⟩, hpresent⟩
  obtain ⟨other, hother, rfl⟩ := mem_map.mp hpresent
  obtain ⟨i, hi⟩ := mem_iff_getElem?.mp hnode
  obtain ⟨j, hj⟩ := mem_iff_getElem?.mp hother
  simp only [indexOf_of_nodup hunique hi, indexOf_of_nodup hunique hj, Option.getD_some]
  exact h i j node other hi hj hdeclared

end Graph

/-! ## The cycle search -/

section Search

variable (nodes : List PluginGraphNode)
variable {index : Nat}

/-- The dependencies of the node at an index, as `visit` reads them. -/
def declaredAt (index : Nat) : List String :=
  (nodes[index]?.map fun node => node.hardDependencies ++ node.orderDependencies).getD []

/-- The graph on indexes that the search walks. -/
def Edge (i j : Nat) : Prop := ∃ dependency ∈ declaredAt nodes i, indexOf nodes dependency = some j

/-- No walk along the dependencies of a node goes on for ever. -/
def Grounded (index : Nat) : Prop := Acc (fun j i => Edge nodes i j) index

/-- The state of the search between two steps. -/
structure Searching (search : Search) : Prop where
  length : search.states.length = nodes.length
  stack_iff : ∀ i : Nat, search.states[i]? = some .onStack ↔ i ∈ search.stack
  nodup : search.stack.Nodup
  path : search.stack.IsChain (Edge nodes)
  grounded : ∀ i : Nat, search.states[i]? = some .finished → Grounded nodes i

/-- What a step of the search that reports nothing leaves. -/
structure Advances (search search' : Search) : Prop where
  searching : Searching nodes search'
  stack : search'.stack = search.stack
  finished : ∀ i : Nat, search.states[i]? = some .finished → search'.states[i]? = some .finished
  unvisited : search'.states.count .unvisited ≤ search.states.count .unvisited

/-- What a step of the search returns: a closed walk, or an advanced search
with some nodes finished. -/
def Explores (search : Search) (done : Nat → Prop) : Option (List String) × Search → Prop
  | (some cycle, _) => ClosedWalk (DependsOn nodes) cycle
  | (none, search') =>
    Advances nodes search search' ∧ ∀ i, done i → search'.states[i]? = some .finished

variable {nodes} {search search' search'' : Search}

theorem Advances.refl (h : Searching nodes search) : Advances nodes search search :=
  ⟨h, rfl, fun _ hi => hi, Nat.le_refl _⟩

theorem Advances.trans (h : Advances nodes search search')
    (h' : Advances nodes search' search'') : Advances nodes search search'' :=
  ⟨h'.searching, h'.stack.trans h.stack, fun i hi => h'.finished i (h.finished i hi),
    h'.unvisited.trans h.unvisited⟩

theorem Explores.of_advances {done done' result} (hadvances : Advances nodes search search')
    (hdone : ∀ i, done i → search'.states[i]? = some .finished ∨ done' i)
    (h : Explores nodes search' done' result) : Explores nodes search done result := by
  obtain ⟨cycle, search''⟩ := result
  cases cycle with
  | some cycle => exact h
  | none =>
    obtain ⟨hlater, hfinished⟩ := h
    refine ⟨hadvances.trans hlater, ?_⟩
    intro i hi
    rcases hdone i hi with hi | hi
    · exact hlater.finished i hi
    · exact hfinished i hi

theorem Edge.dependsOn {i j} (h : Edge nodes i j) :
    DependsOn nodes (nodeId nodes i) (nodeId nodes j) := by
  obtain ⟨dependency, hdeclared, hindex⟩ := h
  obtain ⟨other, hother, rfl⟩ := indexOf_eq_some hindex
  cases hnode : nodes[i]? with
  | none => simp [declaredAt, hnode] at hdeclared
  | some node =>
    simp only [declaredAt, hnode, Option.map_some, Option.getD_some] at hdeclared
    have hj : nodeId nodes j = other.id := by simp [nodeId, hother]
    have hi : nodeId nodes i = node.id := by simp [nodeId, hnode]
    rw [hi, hj]
    exact ⟨⟨node, mem_of_getElem? hnode, rfl, hdeclared⟩, mem_map_of_mem (mem_of_getElem? hother)⟩

/-- A dependency on the stack closes the part of the stack from it on. -/
theorem closedWalk_closeCycle {stack dependency}
    (hpath : stack.IsChain (Edge nodes)) (hlast : stack.getLast? = some index)
    (hmem : dependency ∈ stack) (hedge : Edge nodes index dependency) :
    ClosedWalk (DependsOn nodes) (closeCycle nodes stack dependency) := by
  obtain ⟨before, after, rfl, hbefore⟩ := eq_append_cons_of_mem hmem
  have hstart : (before ++ dependency :: after).findIdx? (fun i => i = dependency)
      = some before.length := by
    rw [findIdx?_append, findIdx?_eq_none_iff.mpr]
    · simp [findIdx?_cons]
    intro i hi
    simp only [decide_eq_false_iff_not]
    rintro rfl
    exact hbefore hi
  have hcycle : closeCycle nodes (before ++ dependency :: after) dependency
      = (dependency :: after ++ [dependency]).map (nodeId nodes) := by
    simp [closeCycle, hstart]
  have hchain : (dependency :: after ++ [dependency]).IsChain (Edge nodes) := by
    refine hpath.right_of_append.append (.singleton _) ?_
    intro last hlast' first hfirst
    rw [getLast?_append_of_ne_nil _ (by simp)] at hlast
    simp only [head?_cons, Option.mem_some_iff] at hfirst
    have : last = index := by
      rw [Option.mem_def, hlast] at hlast'
      exact (Option.some.inj hlast').symm
    subst this hfirst
    exact hedge
  rw [hcycle]
  refine ⟨nodeId nodes dependency, after.map (nodeId nodes), by simp, ?_⟩
  exact isChain_map_of_isChain (nodeId nodes) (fun _ _ h => h.dependsOn) hchain

/-- A call of `visit` on an unvisited node that the last node of the stack
depends on. -/
def VisitsWell (nodes : List PluginGraphNode)
    (visit : Nat → Search → Option (List String) × Search) (bound : Nat) : Prop :=
  ∀ index search, Searching nodes search → search.states[index]? = some .unvisited →
    (search.stack ++ [index]).IsChain (Edge nodes) → search.states.count .unvisited ≤ bound →
    Explores nodes search (· = index) (visit index search)

/-- The loop over the dependencies finishes all of them. -/
theorem visitDependencies_explores {visit bound dependencies}
    (hvisit : VisitsWell nodes visit bound)
    (hedges : ∀ dependency ∈ dependencies, ∀ j, indexOf nodes dependency = some j →
      Edge nodes index j) (hsearch : Searching nodes search)
    (hlast : search.stack.getLast? = some index) (hbound : search.states.count .unvisited ≤ bound) :
    Explores nodes search (fun j => ∃ dependency ∈ dependencies, indexOf nodes dependency = some j)
      (visitDependencies nodes visit dependencies search) := by
  induction dependencies generalizing search with
  | nil => exact ⟨.refl hsearch, by simp⟩
  | cons dependency rest ih =>
    have hrest : ∀ d ∈ rest, ∀ j, indexOf nodes d = some j → Edge nodes index j :=
      fun d hd => hedges d (mem_cons_of_mem dependency hd)
    rw [visitDependencies]
    cases hindex : indexOf nodes dependency with
    | none =>
      refine .of_advances (.refl hsearch) ?_ (ih hrest hsearch hlast hbound)
      rintro j ⟨d, hd, hj⟩
      rcases mem_cons.mp hd with rfl | hd
      · rw [hindex] at hj
        cases hj
      · exact .inr ⟨d, hd, hj⟩
    | some j =>
      have hedge : Edge nodes index j := hedges dependency mem_cons_self j hindex
      obtain ⟨target, htarget, -⟩ := indexOf_eq_some hindex
      have hlt : j < search.states.length := by
        rw [hsearch.length]
        exact (List.getElem?_eq_some_iff.mp htarget).1
      have hstate : search.states[j]? = some (search.states.getD j .finished) := by
        simp [getD_eq_getElem?_getD, getElem?_eq_getElem hlt]
      -- what remains after this dependency is finished
      have hlater : ∀ {search'}, Advances nodes search search' →
          search'.states[j]? = some .finished → Explores nodes search
            (fun j => ∃ d ∈ dependency :: rest, indexOf nodes d = some j)
            (visitDependencies nodes visit rest search') := by
        intro search' hadvances hfinished
        refine .of_advances hadvances ?_ (ih hrest hadvances.searching ?_ ?_)
        · rintro k ⟨d, hd, hk⟩
          rcases mem_cons.mp hd with rfl | hd
          · rw [hindex] at hk
            cases hk
            exact .inl hfinished
          · exact .inr ⟨d, hd, hk⟩
        · rw [hadvances.stack, hlast]
        · exact hadvances.unvisited.trans hbound
      cases hcolour : search.states.getD j .finished with
      | unvisited =>
        rw [hcolour] at hstate
        have hpath : (search.stack ++ [j]).IsChain (Edge nodes) := by
          refine hsearch.path.append (.singleton _) ?_
          intro last hlast' first hfirst
          rw [Option.mem_def, hlast] at hlast'
          simp only [head?_cons, Option.mem_some_iff] at hfirst
          cases hlast'
          subst hfirst
          exact hedge
        have hcall := hvisit j search hsearch hstate hpath hbound
        simp only [hcolour]
        cases hresult : visit j search with
        | mk cycle search' =>
          rw [hresult] at hcall
          cases cycle with
          | some cycle => exact hcall
          | none => exact hlater hcall.1 (hcall.2 j rfl)
      | onStack =>
        rw [hcolour] at hstate
        simp only [hcolour]
        exact closedWalk_closeCycle hsearch.path hlast ((hsearch.stack_iff j).mp hstate) hedge
      | finished =>
        rw [hcolour] at hstate
        simp only [hcolour]
        exact hlater (.refl hsearch) hstate

/-- Entering a node. -/
theorem Searching.push (h : Searching nodes search)
    (hunvisited : search.states[index]? = some .unvisited)
    (hpath : (search.stack ++ [index]).IsChain (Edge nodes)) :
    Searching nodes { search.mark index .onStack with stack := search.stack ++ [index] } where
  length := by simpa [mark] using h.length
  stack_iff := by
    intro i
    have hlt : index < search.states.length := (List.getElem?_eq_some_iff.mp hunvisited).1
    simp only [mark, mem_append, mem_singleton]
    by_cases hi : i = index
    · subst hi
      simp [hlt]
    · rw [getElem?_set_ne (.symm hi), h.stack_iff]
      simp [hi]
  nodup := by
    have hnew : index ∉ search.stack := by
      rw [← h.stack_iff, hunvisited]
      simp
    rw [nodup_append]
    refine ⟨h.nodup, nodup_singleton index, ?_⟩
    rintro i hi j hj rfl
    exact hnew (mem_singleton.mp hj ▸ hi)
  path := hpath
  grounded := by
    intro i hi
    by_cases hne : i = index
    · subst hne
      have hlt : i < search.states.length := (List.getElem?_eq_some_iff.mp hunvisited).1
      simp [mark, hlt] at hi
    · simp only [mark, getElem?_set_ne (.symm hne)] at hi
      exact h.grounded i hi

/-- Leaving a node whose dependencies are all finished. -/
theorem Searching.pop {below} (h : Searching nodes search)
    (hstack : search.stack = below ++ [index])
    (hfinished : ∀ j, Edge nodes index j → search.states[j]? = some .finished) :
    Searching nodes { search.mark index .finished with stack := search.stack.dropLast } where
  length := by simpa [mark] using h.length
  stack_iff := by
    intro i
    have hnodup := h.nodup
    rw [hstack, nodup_append] at hnodup
    simp only [mark, hstack, dropLast_concat]
    by_cases hi : i = index
    · subst hi
      have hnot : i ∉ below := fun hmem => hnodup.2.2 i hmem i (by simp) rfl
      have hlt : i < search.states.length := by
        have := (h.stack_iff i).mpr (by simp [hstack])
        exact (List.getElem?_eq_some_iff.mp this).1
      simp [hlt, hnot]
    · rw [getElem?_set_ne (.symm hi), h.stack_iff, hstack]
      simp [hi]
  nodup := h.nodup.sublist (dropLast_sublist _)
  path := h.path.dropLast
  grounded := by
    intro i hi
    by_cases hne : i = index
    · subst hne
      exact .intro i fun j hj => h.grounded j (hfinished j hj)
    · simp only [mark, getElem?_set_ne (.symm hne)] at hi
      exact h.grounded i hi

theorem count_unvisited_set (states : List VisitState) (index : Nat) {state}
    (hstate : state ≠ .unvisited) :
    (states.set index state).count .unvisited ≤ states.count .unvisited := by
  induction states generalizing index with
  | nil => simp
  | cons head states ih =>
    cases index with
    | zero => simp [count_cons, hstate]
    | succ index =>
      have := ih index
      simp only [set_cons_succ, count_cons]
      omega

/-- Entering a node leaves one node less to visit. -/
theorem count_unvisited_mark {states : List VisitState} {state}
    (hunvisited : states[index]? = some .unvisited) (hstate : state ≠ .unvisited) :
    (states.set index state).count .unvisited + 1 = states.count .unvisited := by
  induction states generalizing index with
  | nil => simp at hunvisited
  | cons head states ih =>
    cases index with
    | zero =>
      simp only [getElem?_cons_zero, Option.some.injEq] at hunvisited
      subst hunvisited
      simp [hstate]
    | succ index =>
      have := ih (by simpa using hunvisited)
      simp only [set_cons_succ, count_cons]
      omega

/-- `visit` explores a node, when its depth bound covers what is unvisited. -/
theorem visitNode_explores (nodes : List PluginGraphNode) (depth : Nat) :
    VisitsWell nodes (visitNode nodes depth) depth := by
  induction depth with
  | zero =>
    intro index search _ hunvisited _ hbound
    have hmem : .unvisited ∈ search.states := mem_of_getElem? hunvisited
    have := count_pos_iff.mpr hmem
    omega
  | succ depth ih =>
    intro index search hsearch hunvisited hpath hbound
    have hcount := count_unvisited_mark hunvisited (show VisitState.onStack ≠ .unvisited by simp)
    have hpushed := hsearch.push hunvisited hpath
    have hloop := visitDependencies_explores ih (fun dependency hdependency j hj =>
        show Edge nodes index j from ⟨dependency, hdependency, hj⟩) hpushed
      (by simp) (by simp only [mark]; omega)
    rw [visitNode]
    simp only
    rw [declaredAt] at hloop
    generalize visitDependencies nodes (visitNode nodes depth) _ _ = result at hloop ⊢
    obtain ⟨cycle, search'⟩ := result
    cases cycle with
    | some cycle => exact hloop
    | none =>
      obtain ⟨hadvances, hfinished⟩ := hloop
      have hstack : search'.stack = search.stack ++ [index] := hadvances.stack
      have hlt : index < search'.states.length := by
        rw [hadvances.searching.length, ← hsearch.length]
        exact (List.getElem?_eq_some_iff.mp hunvisited).1
      refine ⟨⟨hadvances.searching.pop hstack fun j hj => hfinished j hj, ?_, ?_, ?_⟩, ?_⟩
      · simp [hstack]
      · intro i hi
        by_cases hne : i = index
        · subst hne
          simp [mark, hlt]
        simp only [mark, getElem?_set_ne (.symm hne)]
        refine hadvances.finished i ?_
        simpa only [mark, getElem?_set_ne (.symm hne)] using hi
      · have := hadvances.unvisited
        have := count_unvisited_set search'.states index
          (show VisitState.finished ≠ .unvisited by simp)
        simp only [mark] at *
        omega
      · rintro i rfl
        simp [mark, hlt]

/-- The outer loop reports a closed walk, or it leaves every node finished. -/
theorem searchFrom_spec (indexes : List Nat) (hindexes : ∀ i ∈ indexes, i < nodes.length)
    (hsearch : Searching nodes search) (hstack : search.stack = []) :
    match searchFrom nodes indexes search with
    | some cycle => ClosedWalk (DependsOn nodes) cycle
    | none => ∀ i, i ∈ indexes ∨ search.states[i]? = some .finished → Grounded nodes i := by
  induction indexes generalizing search with
  | nil =>
    intro i hi
    exact hsearch.grounded i (by simpa using hi)
  | cons index rest ih =>
    have hrest : ∀ i ∈ rest, i < nodes.length := fun i hi => hindexes i (mem_cons_of_mem index hi)
    have hlt : index < search.states.length := by
      rw [hsearch.length]
      exact hindexes index mem_cons_self
    have hstate : search.states[index]? = some (search.states.getD index .finished) := by
      simp [getD_eq_getElem?_getD, getElem?_eq_getElem hlt]
    rw [searchFrom]
    by_cases hunvisited : search.states.getD index .finished = .unvisited
    · rw [if_pos hunvisited]
      rw [hunvisited] at hstate
      have hvisit := visitNode_explores nodes nodes.length index search hsearch
        hstate (by simp [hstack]) (by rw [← hsearch.length]; exact count_le_length)
      cases hresult : visitNode nodes nodes.length index search with
      | mk cycle search' =>
        rw [hresult] at hvisit
        cases cycle with
        | some cycle => exact hvisit
        | none =>
          obtain ⟨hadvances, hfinished⟩ := hvisit
          have hlater := ih hrest hadvances.searching (by rw [hadvances.stack, hstack])
          revert hlater
          simp only
          cases searchFrom nodes rest search' with
          | some cycle => exact id
          | none =>
            intro hlater i hi
            refine hlater i ?_
            rcases hi with hi | hi
            · rcases mem_cons.mp hi with rfl | hi
              · exact .inr (hfinished i rfl)
              · exact .inl hi
            · exact .inr (hadvances.finished i hi)
    · rw [if_neg hunvisited]
      have hlater := ih hrest hsearch hstack
      revert hlater
      cases searchFrom nodes rest search with
      | some cycle => exact id
      | none =>
        intro hlater i hi
        refine hlater i ?_
        rcases hi with hi | hi
        · rcases mem_cons.mp hi with rfl | hi
          · -- with nothing on the stack, a visited node is finished
            right
            rw [hstate]
            cases hcolour : search.states.getD i .finished with
            | unvisited => exact absurd hcolour hunvisited
            | onStack =>
              rw [hcolour, hsearch.stack_iff, hstack] at hstate
              exact absurd hstate (by simp)
            | finished => rfl
          · exact .inl hi
        · exact .inr hi

theorem searching_start (nodes : List PluginGraphNode) :
    Searching nodes ⟨replicate nodes.length .unvisited, []⟩ where
  length := by simp
  stack_iff := by simp [getElem?_replicate]
  nodup := .nil
  path := .nil
  grounded := by simp [getElem?_replicate]

/-- A reported cycle is a closed walk. -/
theorem closedWalk_of_findDependencyCycle {cycle}
    (h : findDependencyCycle nodes = some cycle) : ClosedWalk (DependsOn nodes) cycle := by
  have hspec := searchFrom_spec (range nodes.length) (by simp) (searching_start nodes) rfl
  rw [findDependencyCycle] at h
  rw [h] at hspec
  exact hspec

/-- What no walk along indexes leaves, no walk along ids leaves. -/
theorem acc_of_grounded (hunique : (nodeIds nodes).Nodup) {node}
    (h : Grounded nodes index) (hnode : nodes[index]? = some node) :
    Acc (fun dependency id => DependsOn nodes id dependency) node.id := by
  induction h generalizing node with
  | intro index _ ih =>
    refine .intro _ ?_
    rintro dependency ⟨⟨node', hnode', hid, hdeclared⟩, hpresent⟩
    obtain ⟨i, hi⟩ := mem_iff_getElem?.mp hnode'
    -- the ids are unique, so the declaring node is the one at `index`
    have hindex : i = index := by
      have h₁ := indexOf_of_nodup hunique hi
      have h₂ := indexOf_of_nodup hunique hnode
      rw [hid, h₂] at h₁
      exact (Option.some.inj h₁).symm
    subst hindex
    obtain ⟨other, hother, rfl⟩ := mem_map.mp hpresent
    obtain ⟨j, hj⟩ := mem_iff_getElem?.mp hother
    refine ih j ⟨other.id, ?_, indexOf_of_nodup hunique hj⟩ hj
    simpa [declaredAt, hi, PluginGraphNode.declared] using hdeclared

/-- The search reports a cycle exactly when the category has one. -/
theorem findDependencyCycle_isSome_iff (hunique : (nodeIds nodes).Nodup) :
    (findDependencyCycle nodes).isSome ↔ HasCycle (DependsOn nodes) := by
  constructor
  · intro h
    obtain ⟨cycle, hcycle⟩ := Option.isSome_iff_exists.mp h
    exact (closedWalk_of_findDependencyCycle hcycle).hasCycle
  intro hcycle
  by_contra hnone
  rw [Bool.not_eq_true, Option.isSome_eq_false_iff, Option.isNone_iff_eq_none,
    findDependencyCycle] at hnone
  have hspec := searchFrom_spec (range nodes.length) (by simp) (searching_start nodes) rfl
  rw [hnone] at hspec
  refine not_hasCycle_of_acc ?_ hcycle
  rintro id dependency ⟨⟨node, hnode, rfl, -⟩, -⟩
  obtain ⟨i, hi⟩ := mem_iff_getElem?.mp hnode
  have hlt : i < nodes.length := (List.getElem?_eq_some_iff.mp hi).1
  exact acc_of_grounded hunique (hspec i (.inl (mem_range.mpr hlt))) hi

end Search

end CrashMonitor.Pipeline
