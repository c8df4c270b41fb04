import Mathlib.Data.List.Sort
import Mathlib.Data.List.MinMax
import Mathlib.Data.Prod.Lex
import Mathlib.Data.String.Basic
import PersonalAssistant.Lib.DepthFirst
import PersonalAssistant.Lib.Dict

/-!
# The architecture gate

`analyze` reads the imports of every module, resolves them to modules of the package and reports what breaks
the rules: parse errors, imports against the layers, forbidden third-party packages, import cycles and
dynamic imports. Cycles are collected by one depth-first search which enters a module once, and those whose
modules are an entry of the allowlist are dropped afterwards. The search does not list every cycle, so a
forbidden one goes unreported when every cycle the search closes is allowlisted.
-/
namespace PersonalAssistant.Wct

open Lib

/-- `sorted` of a set, which is given by its elements. -/
def sorted {α : Type} [LinearOrder α] (set : List α) : List α := set.dedup.insertionSort (· ≤ ·)

/-- What `_imports` and `_dynamic_imports` find in a module. -/
structure ModuleTree where
  imports : List String
  dynamicImports : List (Int × String)

/-- The parsed modules by name, and the parts of the configuration the gate reads. -/
structure Project where
  package : String
  trees : Dict String ModuleTree
  parseErrors : List String
  layers : List String
  forbiddenExternal : Dict String (List String)
  cycleAllowlist : List (List String)

/-- A graph: the set of modules that each module imports. -/
abbrev ImportGraph := Dict String (List String)

/-! ## Imports -/

/-- `name == package or name.startswith(package + ".")`. -/
def isWithin (package name : String) : Bool :=
  name == package || (package ++ ".").toList.isPrefixOf name.toList

/-- The parts of a dotted name. -/
def nameParts (name : String) : List String := (name.toList.splitOn '.').map String.ofList

namespace Project

variable (project : Project)

def modules : List String := project.trees.entries.map Prod.fst

/-- The module an import leads to: the longest one that contains the name. -/
def resolve (imported : String) : String :=
  ((project.modules.filter fun candidate => isWithin candidate imported).argmax String.length).getD imported

def edges : List (String × String) :=
  project.trees.entries.flatMap fun e =>
    (e.2.imports.filter fun imported => isWithin project.package imported).filterMap fun imported =>
      if project.resolve imported ≠ e.1 then some (e.1, project.resolve imported) else none

/-- The third-party packages of each module that imports some. -/
def external : List (String × List String) :=
  (project.trees.entries.map fun e =>
    (e.1, (e.2.imports.filter fun imported => !isWithin project.package imported).map fun imported =>
      (nameParts imported).headD "")).filter fun e => e.2 ≠ []

def graph : ImportGraph where
  entries := project.trees.entries.map fun e =>
    (e.1, (project.edges.filter fun edge => edge.1 = e.1).map Prod.snd)
  nodup := by simpa [Function.comp_def] using project.trees.nodup

/-- The part of a name behind the package. -/
def layerOf (name : String) : String := (nameParts name).getD 1 ""

/-- The index of each layer. -/
def positions : Dict String Nat :=
  project.layers.zipIdx.foldl (fun positions e => positions.set e.1 e.2) .empty

/-- An import that stays on its layer's level or goes down. -/
def breaksLayers (edge : String × String) : Bool :=
  match project.positions.get? (layerOf edge.1), project.positions.get? (layerOf edge.2) with
  | some source, some target => layerOf edge.1 ≠ layerOf edge.2 && target ≤ source
  | _, _ => false

end Project

/-! ## Cycles -/

theorem mem_sorted {α : Type} [LinearOrder α] {set : List α} {a : α} : a ∈ sorted set ↔ a ∈ set := by
  simp [sorted]

theorem pairwise_sorted {α : Type} [LinearOrder α] (set : List α) : (sorted set).Pairwise (· < ·) := by
  have hle := List.pairwise_insertionSort (· ≤ ·) set.dedup
  have hne : (sorted set).Nodup := (List.perm_insertionSort _ _).nodup_iff.mpr set.nodup_dedup
  exact (hle.and hne).imp fun h => lt_of_le_of_ne h.1 h.2

/-- The graph as the search walks it. -/
def searchGraph (graph : ImportGraph) : FiniteGraph String where
  nodes := sorted (graph.entries.map Prod.fst)
  next node := sorted ((graph.get? node).getD [])
  nodes_sorted := pairwise_sorted _
  next_sorted _ := pairwise_sorted _

/-- The least rotation, closed. -/
def canonical (core : List String) : List String :=
  let rotations := (List.range core.length).map fun index => core.drop index ++ core.take index
  let least := rotations.min?.getD core
  least ++ least.take 1

/-- `_cycles`. -/
def cycles (graph : ImportGraph) : List (List String) :=
  sorted ((searchGraph graph).depthFirst.map canonical)

/-! ## Violations -/

inductive Violation where
  | parseError (text : String)
  | dependencyRule (source target : String)
  | externalForbidden (module name : String)
  | cycle (modules : List String)
  | dynamicImport (module : String) (lineno : Int) (message : String)
deriving DecidableEq

/-- The entry of the report. -/
def Violation.text : Violation → String
  | parseError text => text
  | dependencyRule source target => s!"dependency rule: {source} -> {target}"
  | externalForbidden module name => s!"external forbidden: {module} -> {name}"
  | cycle modules => "cycle: " ++ " -> ".intercalate modules
  | dynamicImport module lineno message => s!"dynamic import: {module}:{lineno}: {message}"

/-- The modules of a cycle are an entry of the allowlist. -/
def Allowed (allowlist : List (List String)) (cycle : List String) : Prop :=
  ∃ modules ∈ allowlist, cycle.toFinset = modules.toFinset

instance (allowlist : List (List String)) (cycle : List String) : Decidable (Allowed allowlist cycle) :=
  inferInstanceAs (Decidable (∃ modules ∈ allowlist, _))

structure Analysis where
  edges : List (String × String)
  cycles : List (List String)
  allowlistedCycles : List (List String)
  violations : List Violation

/-- `analyze`, without the metrics. -/
def analyze (project : Project) : Analysis :=
  let edges := (sorted (project.edges.map toLex)).map ofLex
  let dependencies := (edges.filter project.breaksLayers).map fun e => Violation.dependencyRule e.1 e.2
  let externals := project.external.flatMap fun e =>
    let forbidden := (project.forbiddenExternal.get? (Project.layerOf e.1)).getD []
    (sorted (e.2.filter fun name => name ∈ forbidden)).map (Violation.externalForbidden e.1)
  let detected := cycles project.graph
  let allowlisted := detected.filter fun cycle => Allowed project.cycleAllowlist cycle
  let forbidden := detected.filter fun cycle => ¬ Allowed project.cycleAllowlist cycle
  let dynamic := (project.trees.entries.filter fun e => e.1 ∉ project.cycleAllowlist.flatten).flatMap fun e =>
    e.2.dynamicImports.map fun found => Violation.dynamicImport e.1 found.1 found.2
  { edges := edges
    cycles := forbidden
    allowlistedCycles := allowlisted
    violations := project.parseErrors.map .parseError ++ dependencies ++ externals ++
      forbidden.map .cycle ++ dynamic }

/-! ## What the search finds -/

def Imports (graph : ImportGraph) (source target : String) : Prop := target ∈ (graph.get? source).getD []

instance (graph : ImportGraph) : DecidableRel (Imports graph) := fun _ _ => inferInstanceAs (Decidable (_ ∈ _))

variable {graph : ImportGraph} {cycle : List String} {source target : String}

theorem mem_keys_of_imports (h : Imports graph source target) : source ∈ graph.entries.map Prod.fst := by
  unfold Imports at h
  cases hget : graph.get? source with
  | none => simp [hget] at h
  | some targets => exact List.mem_map.mpr ⟨(source, targets), Dict.mem_entries.mpr hget, rfl⟩

theorem edge_searchGraph : (searchGraph graph).Edge source target ↔
    Imports graph source target ∧ target ∈ graph.entries.map Prod.fst := by
  simp only [FiniteGraph.Edge, searchGraph, mem_sorted, Imports]

/-- Only modules of the graph lie on its cycles. -/
theorem isCycle_searchGraph : IsCycle (searchGraph graph).Edge cycle ↔ IsCycle (Imports graph) cycle := by
  constructor
  · exact fun h => h.imp fun u _ v _ hedge => (edge_searchGraph.mp hedge).1
  · intro h
    refine h.imp fun u _ v hv himports => edge_searchGraph.mpr ⟨himports, ?_⟩
    obtain ⟨w, -, hnext⟩ := h.exists_next hv
    exact mem_keys_of_imports hnext

theorem canonical_eq (cycle : List String) : ∃ n, canonical cycle = cycle.rotate n ++ (cycle.rotate n).take 1 := by
  obtain hnone | ⟨least, hleast⟩ := Option.eq_none_or_eq_some
    ((List.range cycle.length).map fun index => cycle.drop index ++ cycle.take index).min?
  · exact ⟨0, by simp [canonical, hnone]⟩
  · obtain ⟨n, hn, rfl⟩ := List.mem_map.mp (List.min?_mem hleast)
    refine ⟨n, ?_⟩
    rw [List.rotate_eq_drop_append_take (List.mem_range.mp hn).le]
    simp [canonical, hleast]

theorem allowed_congr {allowlist : List (List String)} {cycle' : List String}
    (h : ∀ name, name ∈ cycle ↔ name ∈ cycle') : Allowed allowlist cycle ↔ Allowed allowlist cycle' := by
  have hsame : cycle.toFinset = cycle'.toFinset := by
    ext name
    rw [List.mem_toFinset, List.mem_toFinset, h]
  rw [Allowed, hsame]
  rfl

theorem allowed_canonical {allowlist : List (List String)} :
    Allowed allowlist (canonical cycle) ↔ Allowed allowlist cycle := by
  obtain ⟨n, hn⟩ := canonical_eq cycle
  refine allowed_congr fun name => ?_
  rw [hn, List.mem_append, ← List.mem_rotate (l := cycle) (n := n)]
  exact or_iff_left_of_imp List.mem_of_mem_take

theorem mem_cycles {entry : List String} :
    entry ∈ cycles graph ↔ ∃ cycle, (searchGraph graph).Closes cycle ∧ entry = canonical cycle := by
  rw [cycles, mem_sorted, List.mem_map]
  simp only [FiniteGraph.mem_depthFirst, eq_comm]

theorem cycle_mem_violations {project : Project} {entry : List String} :
    .cycle entry ∈ (analyze project).violations ↔
      entry ∈ cycles project.graph ∧ ¬ Allowed project.cycleAllowlist entry := by
  simp [analyze]

variable (project : Project)

/-- Every cycle entry is a cycle of imports, from its least rotation on, which is not allowlisted. -/
theorem isCycle_of_mem_violations {entry : List String} (h : .cycle entry ∈ (analyze project).violations) :
    ∃ cycle, IsCycle (Imports project.graph) cycle ∧ entry = cycle ++ cycle.take 1 ∧
      ¬ Allowed project.cycleAllowlist cycle := by
  obtain ⟨hmem, hallowed⟩ := cycle_mem_violations.mp h
  obtain ⟨found, hcloses, rfl⟩ := mem_cycles.mp hmem
  obtain ⟨n, hn⟩ := canonical_eq found
  have hcycle : IsCycle (Imports project.graph) (found.rotate n) :=
    (isCycle_searchGraph.mp hcloses.isCycle).rotate n
  refine ⟨found.rotate n, hcycle, hn, fun hrotated => hallowed (allowed_canonical.mpr ?_)⟩
  exact (allowed_congr fun _ => List.mem_rotate).mp hrotated

/-- There is a cycle entry exactly when an import closes a cycle that is not allowlisted onto the first simple
path to the importing module. -/
theorem exists_cycle_mem_violations : (∃ entry, .cycle entry ∈ (analyze project).violations) ↔
    ∃ source target path, IsLeast ((searchGraph project.graph).pathsTo source) path ∧
      Imports project.graph source target ∧ target ∈ path ∧
      ¬ Allowed project.cycleAllowlist (FiniteGraph.suffixFrom path target) := by
  simp only [cycle_mem_violations, mem_cycles]
  constructor
  · rintro ⟨_, ⟨_, ⟨source, target, path, hfirst, hedge, hmem, rfl⟩, rfl⟩, hallowed⟩
    exact ⟨source, target, path, hfirst, (edge_searchGraph.mp hedge).1, hmem, allowed_canonical.not.mp hallowed⟩
  · rintro ⟨source, target, path, hfirst, himports, hmem, hallowed⟩
    have hnode : target ∈ project.graph.entries.map Prod.fst := mem_sorted.mp (hfirst.1.1.subset hmem)
    exact ⟨_, ⟨_, ⟨source, target, path, hfirst, edge_searchGraph.mpr ⟨himports, hnode⟩, hmem, rfl⟩, rfl⟩,
      allowed_canonical.not.mpr hallowed⟩

/-- Without an allowlist the gate is exact: it reports a cycle when there is one. -/
theorem exists_entry_iff_of_allowlist_nil (h : project.cycleAllowlist = []) :
    (∃ entry, .cycle entry ∈ (analyze project).violations) ↔ ∃ cycle, IsCycle (Imports project.graph) cycle := by
  constructor
  · rintro ⟨entry, hentry⟩
    obtain ⟨cycle, hcycle, -⟩ := isCycle_of_mem_violations project hentry
    exact ⟨cycle, hcycle⟩
  · rintro ⟨cycle, hcycle⟩
    obtain ⟨found, hcloses⟩ := FiniteGraph.exists_closes (isCycle_searchGraph.mpr hcycle)
    exact ⟨_, cycle_mem_violations.mpr ⟨mem_cycles.mpr ⟨found, hcloses, rfl⟩, by simp [Allowed, h]⟩⟩

/-- The gate reports some cycle whenever there is a forbidden one, and forbidden cycles only, exactly when
there is none or an import closes one onto the first simple path to the importing module. -/
theorem analyze_cycles_iff :
    (((∃ cycle, IsCycle (Imports project.graph) cycle ∧ ¬ Allowed project.cycleAllowlist cycle) →
        ∃ entry, .cycle entry ∈ (analyze project).violations) ∧
      ∀ entry, .cycle entry ∈ (analyze project).violations →
        ∃ cycle, IsCycle (Imports project.graph) cycle ∧ entry = cycle ++ cycle.take 1 ∧
          ¬ Allowed project.cycleAllowlist cycle) ↔
    ((∀ cycle, IsCycle (Imports project.graph) cycle → Allowed project.cycleAllowlist cycle) ∨
      ∃ source target path, IsLeast ((searchGraph project.graph).pathsTo source) path ∧
        Imports project.graph source target ∧ target ∈ path ∧
        ¬ Allowed project.cycleAllowlist (FiniteGraph.suffixFrom path target)) := by
  rw [← exists_cycle_mem_violations]
  have hsound : ∀ entry, .cycle entry ∈ (analyze project).violations → _ :=
    fun _ => isCycle_of_mem_violations project
  rw [and_iff_left hsound, imp_iff_not_or]
  simp only [not_exists, not_and, not_not]

/-! ## The graphs of projects -/

theorem length_lt_of_isWithin {package name : String} (h : isWithin package name = true) (hne : name ≠ package) :
    package.length < name.length := by
  simp only [isWithin, Bool.or_eq_true, beq_iff_eq, hne, false_or, List.isPrefixOf_iff_prefix] at h
  have := h.length_le
  simp only [String.toList_append, List.length_append, String.length_toList] at this
  exact Nat.lt_of_succ_le this

/-- A module's own name leads to it. -/
theorem resolve_of_mem {name : String} (h : name ∈ project.modules) : project.resolve name = name := by
  have hself : name ∈ project.modules.filter fun candidate => isWithin candidate name :=
    List.mem_filter.mpr ⟨h, by simp [isWithin]⟩
  cases hmax : (project.modules.filter fun candidate => isWithin candidate name).argmax String.length with
  | none => simp [List.argmax_eq_none.mp hmax] at hself
  | some found =>
    have hfound := (List.mem_filter.mp (List.argmax_mem hmax)).2
    have hle := List.le_of_mem_argmax hself hmax
    have heq : name = found := by
      by_contra hne
      exact absurd (length_lt_of_isWithin hfound hne) (not_lt.mpr hle)
    rw [Project.resolve, hmax, heq]
    rfl

theorem mem_edges : (source, target) ∈ project.edges ↔
    ∃ tree imported, project.trees.get? source = some tree ∧ imported ∈ tree.imports ∧
      isWithin project.package imported ∧ project.resolve imported = target ∧ target ≠ source := by
  simp only [Project.edges, List.mem_flatMap, List.mem_filterMap, List.mem_filter]
  constructor
  · rintro ⟨⟨name, tree⟩, htree, imported, ⟨himported, hwithin⟩, hedge⟩
    split_ifs at hedge with hne
    obtain ⟨rfl, rfl⟩ := Prod.mk.inj (Option.some.inj hedge)
    exact ⟨tree, imported, Dict.mem_entries.mp htree, himported, hwithin, rfl, hne⟩
  · rintro ⟨tree, imported, htree, himported, hwithin, rfl, hne⟩
    exact ⟨(source, tree), Dict.mem_entries.mpr htree, imported, ⟨himported, hwithin⟩, if_pos hne⟩

theorem imports_graph : Imports project.graph source target ↔ (source, target) ∈ project.edges := by
  have hget : ∀ targets, project.graph.get? source = some targets ↔ ∃ tree,
      project.trees.get? source = some tree ∧
        (project.edges.filter fun edge => edge.1 = source).map Prod.snd = targets := by
    intro targets
    rw [Dict.get?_eq_some_iff]
    simp only [Project.graph, List.mem_map, Prod.mk.injEq]
    constructor
    · rintro ⟨⟨_, tree⟩, htree, rfl, htargets⟩
      exact ⟨tree, Dict.mem_entries.mp htree, htargets⟩
    · rintro ⟨tree, htree, htargets⟩
      exact ⟨(source, tree), Dict.mem_entries.mpr htree, rfl, htargets⟩
  have htargets : target ∈ (project.edges.filter fun edge => edge.1 = source).map Prod.snd ↔
      (source, target) ∈ project.edges := by
    simp
  constructor
  · intro h
    cases hsome : project.graph.get? source with
    | none => simp [Imports, hsome] at h
    | some targets =>
      obtain ⟨tree, -, heq⟩ := (hget targets).mp hsome
      rw [Imports, hsome, Option.getD_some, ← heq] at h
      exact htargets.mp h
  · intro h
    obtain ⟨tree, _, htree, -⟩ := (mem_edges project).mp h
    rw [Imports, (hget _).mpr ⟨tree, htree, rfl⟩]
    exact htargets.mpr h

/-- A project whose modules name what they import. -/
def projectOf (graph : ImportGraph) (package : String) (allowlist : List (List String)) : Project where
  package := package
  trees := ⟨graph.entries.map fun e => (e.1, ⟨e.2, []⟩), by simpa [Function.comp_def] using graph.nodup⟩
  parseErrors := []
  layers := []
  forbiddenExternal := .empty
  cycleAllowlist := allowlist

section ProjectOf

variable {package : String} {allowlist : List (List String)}

theorem modules_projectOf : (projectOf graph package allowlist).modules = graph.entries.map Prod.fst := by
  simp [projectOf, Project.modules, Function.comp_def]

theorem get?_projectOf {tree : ModuleTree} :
    (projectOf graph package allowlist).trees.get? source = some tree ↔
      ∃ targets, graph.get? source = some targets ∧ tree = ⟨targets, []⟩ := by
  simp only [Dict.get?_eq_some_iff, projectOf, List.mem_map, Prod.mk.injEq]
  constructor
  · rintro ⟨⟨_, targets⟩, hmem, rfl, rfl⟩
    exact ⟨targets, hmem, rfl⟩
  · rintro ⟨targets, hmem, rfl⟩
    exact ⟨(source, targets), hmem, rfl, rfl⟩

/-- Every graph of modules of a package, none of which imports itself, is the graph of a project. -/
theorem imports_projectOf (hpackage : ∀ name ∈ graph.entries.map Prod.fst, isWithin package name)
    (htargets : ∀ source target, Imports graph source target →
      target ∈ graph.entries.map Prod.fst ∧ target ≠ source) :
    Imports (projectOf graph package allowlist).graph source target ↔ Imports graph source target := by
  rw [imports_graph, mem_edges]
  constructor
  · rintro ⟨tree, imported, htree, himported, -, rfl, hne⟩
    obtain ⟨targets, hget, rfl⟩ := get?_projectOf.mp htree
    have himports : Imports graph source imported := by
      rw [Imports, hget]
      exact himported
    rwa [resolve_of_mem _ (modules_projectOf ▸ (htargets source imported himports).1)]
  · intro himports
    obtain ⟨hmem, hne⟩ := htargets source target himports
    have hself := resolve_of_mem (projectOf graph package allowlist) (modules_projectOf ▸ hmem)
    cases hget : graph.get? source with
    | none => simp [Imports, hget] at himports
    | some targets =>
      rw [Imports, hget] at himports
      exact ⟨⟨targets, []⟩, target, get?_projectOf.mpr ⟨targets, hget, rfl⟩, himports, hpackage target hmem,
        hself, hne⟩

end ProjectOf

/-! ### Two ways around -/

/-- `a` imports `a.d` by way of `a.b`, which is allowlisted, and by way of `a.c`. -/
def sampleProject : Project :=
  projectOf ⟨[("a", ["a.b", "a.c"]), ("a.b", ["a.d"]), ("a.c", ["a.d", "sys"]), ("a.d", ["a"])], by decide⟩ "a"
    [["a", "a.b", "a.d"]]

/-- The forbidden cycle is there, and the gate reports nothing. -/
theorem forbidden_cycle_missed :
    IsCycle (Imports sampleProject.graph) ["a", "a.c", "a.d"] ∧
      ¬ Allowed sampleProject.cycleAllowlist ["a", "a.c", "a.d"] ∧ (analyze sampleProject).violations = [] := by
  decide +kernel

end PersonalAssistant.Wct
