import Mathlib.Data.List.DropRight
import PersonalAssistant.Domain.Errors
import PersonalAssistant.Lib.Dict
import PersonalAssistant.Lib.Effect
import PersonalAssistant.Wct.SyntaxTrees

/-!
# Mutation sites

`mutation_sites` counts the mutable nodes of a file in a walk over all nodes. `function_sites` counts them
in buckets, one for every qualified name of a function and one for the rest of the module, in a recursion
that hands down the names of the enclosing functions and classes and the bucket they count into.

A place of a tree is a node with the nodes above it. Every mutable node counts into the bucket of the
innermost function around its place, so the buckets sum up to the count of the walk.
-/
namespace PersonalAssistant.Wct

open Lib

/-! ## Places and names -/

/-- `isinstance(node, (ast.FunctionDef, ast.AsyncFunctionDef))`, with the name. -/
def Node.functionName? (node : Node) : Option Identifier :=
  match node.head with
  | .functionDef name | .asyncFunctionDef name => some name
  | _ => none

/-- The name a node adds to the qualified names below it. -/
def Node.scopeName? (node : Node) : Option Identifier :=
  match node.head with
  | .functionDef name | .asyncFunctionDef name | .classDef name => some name
  | _ => none

/-- `".".join(parts)`. -/
def qualname (parts : List Identifier) : String := ".".intercalate (parts.map Identifier.text)

/-- The nodes below the root, each with the nodes above it, the root first. -/
def Module.places (tree : Module) : List (List Node × Node) :=
  syntaxTree.below (fun above node => above ++ [node]) [tree.node] tree.node

def scopeNames (above : List Node) : List Identifier := above.filterMap Node.scopeName?

/-- The innermost function around a place, and what is above it. -/
def enclosing (above : List Node) : List Node := above.rdropWhile fun node => node.functionName?.isNone

/-- The bucket of a place: the qualified name of the innermost function around it. -/
def bucketOf (above : List Node) : String :=
  if enclosing above = [] then "<module>" else qualname (scopeNames (enclosing above))

/-! ## The counts -/

/-- `MUTABLE_NODES`. -/
def isMutable : Head → Bool
  | .compare | .boolOp | .binOp | .unaryOp | .if_ | .ifExp | .while_ | .constant _ => true
  | _ => false

/-- `_is_site`. -/
def isSite (node : Node) : Bool :=
  isMutable node.head &&
    !(match node.head with
      | .constant value => value = .none || value = .ellipsis
      | _ => false)

/-- `mutation_sites`, with `ast.walk`. -/
def mutationSites (tree : Module) : Nat := (syntaxTree.walk [tree.node]).countP isSite

abbrev Counts := Dict String Nat

/-- `counts[scope] += 1`. -/
def increment (counts : Counts) (scope : String) : Except PyError Counts :=
  match counts.get? scope with
  | none => .error (.keyError scope)
  | some count => .ok (counts.set scope (count + 1))

namespace FunctionSites

/-- `visit` of `function_sites`, without a limit on the depth of the recursion. -/
def visit (node : Node) (parts : List Identifier) (scope : String) (counts : Counts) :
    Except PyError Counts :=
  node.childNodes.attach.foldlM (fun counts child =>
    match child.1.head with
    | .functionDef name | .asyncFunctionDef name =>
      let name' := qualname (parts ++ [name])
      visit child.1 (parts ++ [name]) name' (counts.set name' ((counts.get? name').getD 0))
    | .classDef name => visit child.1 (parts ++ [name]) scope counts
    | _ => do
      let counts ← if isSite child.1 then increment counts scope else pure counts
      visit child.1 parts scope counts) counts
termination_by sizeOf node
decreasing_by all_goals exact Node.sizeOf_lt_of_mem_childNodes child.2

end FunctionSites

/-- `function_sites`. -/
def functionSites (tree : Module) : Except PyError Counts :=
  FunctionSites.visit tree.node [] "<module>" (Dict.empty.set "<module>" 0)

/-! ## The recursion as a loop over the places -/

namespace FunctionSites

/-- What the recursion hands down: the names above, and the bucket. -/
abbrev Context := List Identifier × String

def inherit (context : Context) (child : Node) : Context :=
  match child.head with
  | .functionDef name | .asyncFunctionDef name =>
    (context.1 ++ [name], qualname (context.1 ++ [name]))
  | .classDef name => (context.1 ++ [name], context.2)
  | _ => context

/-- What `visit` does at one child. -/
def count (context : Context) (child : Node) (counts : Counts) : Except PyError Counts :=
  match child.functionName? with
  | some name =>
    let name' := qualname (context.1 ++ [name])
    .ok (counts.set name' ((counts.get? name').getD 0))
  | none => if isSite child then increment counts context.2 else .ok counts

theorem visit_eq (context : Context) (node : Node) (counts : Counts) :
    visit node context.1 context.2 counts =
      (syntaxTree.below inherit context node).foldlM (fun counts place => count place.1 place.2 counts)
        counts := by
  refine syntaxTree.eq_foldlM_below inherit (f := fun context node => visit node context.1 context.2)
    (fun context node counts => ?_) context node counts
  rw [visit, List.foldlM_subtype (g := fun counts child => count context child counts >>=
    visit child (inherit context child).1 (inherit context child).2), List.unattach_attach]
  · rfl
  · intro counts child hchild
    simp only [count, inherit, Node.functionName?]
    cases hhead : child.head with
    | functionDef name => rfl
    | asyncFunctionDef name => rfl
    | classDef name =>
      have hsite : isSite child = false := by simp [isSite, hhead, isMutable]
      rw [hsite]
      rfl
    | _ => cases isSite child <;> rfl

/-- The context of a place is read off the nodes above it. -/
def contextOf (above : List Node) : Context := (scopeNames above, bucketOf above)

theorem contextOf_append (above : List Node) (node : Node) :
    contextOf (above ++ [node]) = inherit (contextOf above) node := by
  unfold contextOf inherit bucketOf enclosing scopeNames
  rw [List.rdropWhile_concat]
  cases h : node.head <;> simp [Node.functionName?, Node.scopeName?, h]

/-- A bucket the recursion counts into is one of the keys. -/
def Known (context : Context) (counts : Counts) : Prop := (counts.get? context.2).isSome

theorem not_isSite_of_functionName? {node : Node} {name : Identifier} (h : node.functionName? = some name) :
    isSite node = false := by
  unfold Node.functionName? at h
  cases hhead : node.head <;> simp_all [isSite, isMutable]

theorem known_set {context : Context} {counts : Counts} {name : String} {n : Nat}
    (h : Known context counts) : Known context (counts.set name n) := by
  unfold Known at *
  rw [Dict.get?_set]
  split_ifs
  · rfl
  · exact h

theorem known_count (context context' : Context) (child : Node) (counts counts' : Counts)
    (h : count context' child counts = .ok counts') (hknown : Known context counts) :
    Known context counts' := by
  unfold count increment at h
  split at h
  · cases h
    exact known_set hknown
  · split_ifs at h
    · split at h
      · cases h
      · cases h
        exact known_set hknown
    · cases h
      exact hknown

theorem inherit_snd (context : Context) (child : Node) : (inherit context child).2 =
    child.functionName?.elim context.2 fun name => qualname (context.1 ++ [name]) := by
  unfold inherit Node.functionName?
  cases child.head <;> rfl

/-- Where the bucket is known, nothing is looked up in vain, and the bucket handed down is known. -/
theorem exists_count (context : Context) (child : Node) (counts : Counts) (h : Known context counts) :
    ∃ counts', count context child counts = .ok counts' ∧ Known (inherit context child) counts' := by
  obtain ⟨n, hn⟩ := Option.isSome_iff_exists.mp h
  unfold Known
  rw [inherit_snd]
  cases hname : child.functionName? with
  | some name => exact ⟨_, by rw [count, hname], by simp⟩
  | none =>
    cases hsite : isSite child with
    | false => exact ⟨counts, by simp [count, hname, hsite], h⟩
    | true => exact ⟨counts.set context.2 (n + 1), by simp [count, hname, hsite, increment, hn], by simp⟩

/-- One child adds to its own bucket only, and one where it is a site. -/
theorem count_spec {context : Context} {child : Node} {counts counts' : Counts}
    (h : count context child counts = .ok counts') :
    (∀ bucket, (counts'.get? bucket).getD 0 = (counts.get? bucket).getD 0 +
      if isSite child && context.2 = bucket then 1 else 0) ∧
    counts'.values.sum = counts.values.sum + if isSite child then 1 else 0 := by
  unfold count at h
  split at h
  · rename_i name hname
    cases h
    have hsite := not_isSite_of_functionName? hname
    have hsum := counts.sum_values_set (qualname (context.1 ++ [name]))
      ((counts.get? (qualname (context.1 ++ [name]))).getD 0)
    refine ⟨fun bucket => ?_, by simp only [hsite]; grind⟩
    rw [Dict.get?_set]
    split_ifs <;> simp_all
  · split_ifs at h with hsite
    · unfold increment at h
      split at h
      · cases h
      · rename_i n hn
        cases h
        have hsum := counts.sum_values_set context.2 (n + 1)
        refine ⟨fun bucket => ?_, by grind⟩
        rw [Dict.get?_set]
        grind
    · cases h
      simp [hsite]

theorem foldlM_count_spec {places : List (Context × Node)} {counts counts' : Counts}
    (h : places.foldlM (fun counts place => count place.1 place.2 counts) counts = .ok counts') :
    (∀ bucket, (counts'.get? bucket).getD 0 = (counts.get? bucket).getD 0 +
      places.countP fun place => isSite place.2 && place.1.2 = bucket) ∧
    counts'.values.sum = counts.values.sum + places.countP fun place => isSite place.2 := by
  induction places generalizing counts with
  | nil =>
    cases h
    simp
  | cons place places ih =>
    rw [List.foldlM_cons] at h
    obtain ⟨middle, hstep, hrest⟩ := except_bind_eq_ok.mp h
    obtain ⟨hbuckets, hsum⟩ := count_spec hstep
    obtain ⟨hbuckets', hsum'⟩ := ih hrest
    simp only [List.countP_cons]
    refine ⟨fun bucket => ?_, by omega⟩
    rw [hbuckets', hbuckets]
    omega

/-- The buckets the recursion fills, read off the places. -/
theorem visit_root (tree : Module) (counts : Counts) :
    visit tree.node [] "<module>" counts =
      (tree.places.map fun place => (contextOf place.1, place.2)).foldlM
        (fun counts place => count place.1 place.2 counts) counts := by
  have hroot : contextOf [tree.node] = ([], "<module>") := rfl
  rw [Module.places, syntaxTree.map_below _ contextOf_append, hroot]
  exact visit_eq ([], "<module>") tree.node counts

end FunctionSites

theorem mutationSites_eq (tree : Module) :
    mutationSites tree = tree.places.countP fun place => isSite place.2 := by
  have hnodes : tree.node :: tree.places.map Prod.snd = syntaxTree.preorder tree.node :=
    syntaxTree.map_snd_below _ _ _
  have hroot : isSite tree.node = false := rfl
  rw [mutationSites, (syntaxTree.walk_perm _).countP_eq, List.flatMap_singleton, ← hnodes,
    List.countP_cons, hroot, List.countP_map]
  rfl

section Partition

open FunctionSites

/-- Mutation-site buckets partition the file. The recursion never looks up a scope it does not know; the
buckets sum up to the count of the walk; and each bucket counts the mutable nodes whose innermost function
has its name, or those outside of every function. -/
theorem functionSites_partition (tree : Module) :
    ∃ counts, functionSites tree = .ok counts ∧ counts.values.sum = mutationSites tree ∧
      (∀ bucket, (counts.get? bucket).getD 0 =
        tree.places.countP fun place => isSite place.2 && bucketOf place.1 = bucket) ∧
      ∀ place ∈ tree.places, isSite place.2 = true → (counts.get? (bucketOf place.1)).isSome := by
  have hstart : FunctionSites.Known ([], "<module>") (Dict.empty.set "<module>" 0) := rfl
  obtain ⟨counts, hcounts, -⟩ := syntaxTree.exists_foldlM_below inherit known_count exists_count _
    tree.node _ hstart
  rw [← visit_eq] at hcounts
  have hloop := hcounts
  rw [visit_root] at hloop
  obtain ⟨hbuckets, hsum⟩ := foldlM_count_spec hloop
  have hbuckets : ∀ bucket, (counts.get? bucket).getD 0 =
      tree.places.countP fun place => isSite place.2 && bucketOf place.1 = bucket := by
    intro bucket
    rw [hbuckets, List.countP_map, Dict.get?_set]
    split_ifs <;> simp [Function.comp_def, contextOf]
  refine ⟨counts, hcounts, ?_, hbuckets, fun place hplace hsite => ?_⟩
  · rw [hsum, mutationSites_eq, List.countP_map]
    simp [Function.comp_def, Dict.values, Dict.set, Dict.insertEntry]
  · have hpos : 0 < (counts.get? (bucketOf place.1)).getD 0 := by
      rw [hbuckets]
      exact List.countP_pos_iff.mpr ⟨place, hplace, by simp [hsite]⟩
    cases h : counts.get? (bucketOf place.1) with
    | none => simp [h] at hpos
    | some n => rfl

end Partition

end PersonalAssistant.Wct
