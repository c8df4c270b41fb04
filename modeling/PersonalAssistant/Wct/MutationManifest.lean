import Mathlib.Data.Multiset.ZeroCons
import PersonalAssistant.Domain.Platform
import PersonalAssistant.Wct.MutationSites

/-!
# The mutation manifest

`update_manifest` stores a fingerprint for every function of the source files, `scan` reports the functions
whose fingerprint is not the stored one. Fingerprints are kept under the path of the file and the qualified
name of the function, so of several definitions with one qualified name (a property and its setter,
overloads, conditional definitions) the last one is kept: a change is noticed exactly when it changes the
last definition of some name.
-/
namespace PersonalAssistant.Wct

open Lib

variable (platform : Platform)

/-- `_fingerprint`: the hash of a function without its position. -/
def fingerprint (node : Node) : String := (platform.sha256 node.dump).text

abbrev Hashes := Dict String String

/-- `f"{path}::{name}"`. -/
def hashKey (path name : String) : String := path ++ "::" ++ name

namespace FunctionHashes

/-- `visit` of `function_hashes`, without a limit on the depth of the recursion. -/
def visit (path : String) (node : Node) (parts : List Identifier) (hashes : Hashes) : Hashes :=
  node.childNodes.attach.foldl (fun hashes child =>
    match child.1.head with
    | .functionDef name | .asyncFunctionDef name =>
      let key := hashKey path (qualname (parts ++ [name]))
      visit path child.1 (parts ++ [name]) (hashes.set key (fingerprint platform child.1))
    | .classDef name => visit path child.1 (parts ++ [name]) hashes
    | _ => visit path child.1 parts hashes) hashes
termination_by sizeOf node
decreasing_by all_goals exact Node.sizeOf_lt_of_mem_childNodes child.2

end FunctionHashes

/-- `function_hashes`. -/
def functionHashes (path : String) (tree : Module) : Hashes :=
  FunctionHashes.visit platform path tree.node [] .empty

/-! ## Scanning -/

/-- The Python files of the source directories in the order of the loops, and what parsing one gives. -/
structure Checkout where
  files : List String
  parse : String → Except PyError Module

/-- `MANIFEST_SCHEMA`. -/
def manifestSchema : Int := 2

structure ManifestDocument where
  schemaVersion : Int
  functions : Hashes

inductive ManifestStatus where
  | missing
  | legacy
  | ok
deriving DecidableEq, Repr

/-- The hashes a manifest is read for: none of a legacy one. -/
def previousOf : Option ManifestDocument → Hashes × ManifestStatus
  | none => (.empty, .missing)
  | some document =>
    if manifestSchema ≤ document.schemaVersion then (document.functions, .ok) else (.empty, .legacy)

structure FileReport where
  file : String
  sites : Nat
  overLimit : Bool
  changedFunctions : List String

structure ScanReport where
  files : List FileReport
  functions : Hashes
  changedFunctions : Nat
  overLimit : List String
  manifest : ManifestStatus

/-- The keys whose value is not the previous one, sorted. -/
def changedKeys (previous current : Hashes) : List String :=
  ((current.entries.filter fun e => previous.get? e.1 ≠ some e.2).map Prod.fst).mergeSort (· ≤ ·)

def fileReport (limit : Int) (previous : Hashes) (path : String) (tree : Module) : FileReport where
  file := path
  sites := mutationSites tree
  overLimit := limit < mutationSites tree
  changedFunctions := changedKeys previous (functionHashes platform path tree)

/-- One file of the loop: `functions` and `files` after it. -/
def scanFile (limit : Int) (previous : Hashes) (checkout : Checkout)
    (state : Hashes × List FileReport) (path : String) : Except PyError (Hashes × List FileReport) := do
  let tree ← checkout.parse path
  return (state.1.update (functionHashes platform path tree),
    state.2 ++ [fileReport platform limit previous path tree])

/-- `scan`, where `limit` is `max_sites_per_file`. -/
def scan (limit : Int) (manifest : Option ManifestDocument) (checkout : Checkout) :
    Except PyError ScanReport := do
  let previous := previousOf manifest
  let state ← checkout.files.foldlM (scanFile platform limit previous.1 checkout) (.empty, [])
  return {
    files := state.2
    functions := state.1
    changedFunctions := (state.2.map fun file => file.changedFunctions.length).sum
    overLimit := (state.2.filter FileReport.overLimit).map FileReport.file
    manifest := previous.2 }

/-- `update_manifest`: the document it writes. -/
def updateManifest (limit : Int) (approvedBy reason : String) (manifest : Option ManifestDocument)
    (checkout : Checkout) : Except PyError ManifestDocument := do
  if decide (approvedBy ≠ "") ≠ decide (reason ≠ "") then
    throw (.valueError "update-manifest con bless requiere --approved-by y --reason juntos")
  let report ← scan platform limit manifest checkout
  return ⟨manifestSchema, report.functions⟩

/-! ## The functions of a version -/

/-- The functions and methods in source order, each with its qualified name. -/
def Module.functions (tree : Module) : List (String × Node) :=
  tree.places.filterMap fun place =>
    place.2.functionName?.map fun name => (qualname (scopeNames place.1 ++ [name]), place.2)

/-- The last function of a qualified name. -/
def Module.lastDefinition (tree : Module) (name : String) : Option Node :=
  tree.functions.reverse.lookup name

/-- A changed function is reported for the file. -/
def ScanReport.Notices (report : ScanReport) (path : String) : Prop :=
  ∃ file ∈ report.files, file.file = path ∧ file.changedFunctions ≠ []

variable {platform} {path name : String} {tree : Module}

namespace FunctionHashes

def inherit (parts : List Identifier) (child : Node) : List Identifier :=
  parts ++ child.scopeName?.toList

/-- What `visit` does at one child. -/
def store (platform : Platform) (path : String) (parts : List Identifier) (child : Node) (hashes : Hashes) :
    Hashes :=
  match child.functionName? with
  | some name => hashes.set (hashKey path (qualname (parts ++ [name]))) (fingerprint platform child)
  | none => hashes

theorem visit_eq (parts : List Identifier) (node : Node) (hashes : Hashes) :
    visit platform path node parts hashes = (syntaxTree.below inherit parts node).foldl
      (fun hashes place => store platform path place.1 place.2 hashes) hashes := by
  refine syntaxTree.eq_foldl_below inherit (f := fun parts node => visit platform path node parts)
    (fun parts node hashes => ?_) parts node hashes
  rw [visit, List.foldl_subtype (g := fun hashes child =>
    visit platform path child (inherit parts child) (store platform path parts child hashes)),
    List.unattach_attach]
  · rfl
  · intro hashes child hchild
    simp only [store, inherit, Node.functionName?, Node.scopeName?]
    cases child.head <;> simp

theorem inherit_scopeNames (above : List Node) (node : Node) :
    scopeNames (above ++ [node]) = inherit (scopeNames above) node := by
  unfold scopeNames inherit
  rw [List.filterMap_append]
  cases h : node.scopeName? <;> simp [h]

end FunctionHashes

open FunctionHashes in
/-- The hashes of a file: the functions written under their keys, one after another. -/
theorem functionHashes_eq (path : String) (tree : Module) :
    functionHashes platform path tree = (tree.functions.map fun f =>
      (hashKey path f.1, fingerprint platform f.2)).foldl (fun hashes e => hashes.set e.1 e.2) .empty := by
  have hplaces := syntaxTree.map_below _ inherit_scopeNames [tree.node] tree.node
  have hroot : scopeNames [tree.node] = [] := rfl
  rw [hroot] at hplaces
  rw [functionHashes, visit_eq, ← hplaces, List.foldl_map, List.foldl_map, Module.functions,
    List.foldl_filterMap]
  refine congrArg (fun f => List.foldl f _ _) ?_
  funext hashes place
  unfold store
  cases place.2.functionName? <;> rfl

/-! ## Keys -/

theorem qualname_noColon (parts : List Identifier) : ':' ∉ (qualname parts).toList := by
  unfold qualname
  induction parts with
  | nil => simp
  | cons part parts ih =>
    have hpart : ':' ∉ part.text.toList := fun h => by
      have := List.all_eq_true.mp part.chars _ h
      revert this
      decide
    cases parts with
    | nil => simpa using hpart
    | cons q parts =>
      rw [List.map_cons, String.intercalate_cons_of_ne_nil (by simp), String.toList_append,
        String.toList_append, List.mem_append, List.mem_append]
      rintro ((h | h) | h)
      · exact hpart h
      · revert h
        decide
      · exact ih h

/-- A name without colons can be told from the path in front of it. -/
theorem hashKey_inj {path' name' : String} (h : hashKey path name = hashKey path' name')
    (hname : ':' ∉ name.toList) (hname' : ':' ∉ name'.toList) : path = path' ∧ name = name' := by
  have hrev := congrArg (fun s => s.toList.reverse) h
  simp only [hashKey, String.toList_append, List.reverse_append, List.append_assoc] at hrev
  have hne : ∀ {s : String}, ':' ∉ s.toList → ∀ c ∈ s.toList.reverse, (c != ':') = true := by
    intro s hs c hc
    rw [bne_iff_ne]
    rintro rfl
    exact hs (List.mem_reverse.mp hc)
  obtain ⟨hn, hp⟩ := append_inj_of_all (d := ':') (hne hname) (hne hname') (by decide) hrev
  have hpath : path.toList.reverse = path'.toList.reverse := (List.cons.inj hp).2
  exact ⟨String.toList_inj.mp (List.reverse_inj.mp hpath), String.toList_inj.mp (List.reverse_inj.mp hn)⟩

theorem noColon_of_mem {f : String × Node} (h : f ∈ tree.functions) : ':' ∉ f.1.toList := by
  obtain ⟨place, -, hf⟩ := List.mem_filterMap.mp h
  obtain ⟨name, -, rfl⟩ := Option.map_eq_some_iff.mp hf
  exact qualname_noColon _

theorem mem_of_lastDefinition {node : Node} (h : tree.lastDefinition name = some node) :
    (name, node) ∈ tree.functions := by
  obtain ⟨l₁, l₂, hsplit, -⟩ := List.lookup_eq_some_iff.mp h
  rw [← List.mem_reverse, hsplit]
  simp

/-- What the hashes of a file hold for a name. -/
theorem get?_functionHashes (path name : String) (tree : Module) :
    (functionHashes platform path tree).get? (hashKey path name) =
      (tree.lastDefinition name).map (fingerprint platform) := by
  rw [functionHashes_eq, Dict.get?_foldl_set, ← List.map_reverse, Module.lastDefinition]
  generalize tree.functions.reverse = fs
  induction fs with
  | nil => rfl
  | cons f fs ih =>
    rw [List.map_cons, Dict.lookup_cons_ite, Dict.lookup_cons_ite]
    by_cases hf : name = f.1
    · simp [hf]
    · have hkey : hashKey path name ≠ hashKey path f.1 := fun h => hf (String.append_right_inj _ |>.mp h)
      rw [if_neg hkey, if_neg hf, ih]

/-- Every key of a file's hashes names one of its functions. -/
theorem exists_of_get?_functionHashes {key hash : String}
    (h : (functionHashes platform path tree).get? key = some hash) :
    ∃ f ∈ tree.functions, key = hashKey path f.1 := by
  rw [functionHashes_eq, Dict.get?_foldl_set, Dict.get?_empty, Option.or_none] at h
  obtain ⟨l₁, l₂, hsplit, -⟩ := List.lookup_eq_some_iff.mp h
  have hmem : (key, hash) ∈ (tree.functions.map fun f => (hashKey path f.1, fingerprint platform f.2)) := by
    rw [← List.mem_reverse, hsplit]
    simp
  obtain ⟨f, hf, heq⟩ := List.mem_map.mp hmem
  exact ⟨f, hf, (congrArg Prod.fst heq).symm⟩

/-! ## What a manifest holds -/

variable {limit : Int} {previous : Hashes} {checkout : Checkout} {manifest : Option ManifestDocument}

theorem scanFile_eq_ok {state state' : Hashes × List FileReport}
    (h : scanFile platform limit previous checkout state path = .ok state') :
    ∃ tree, checkout.parse path = .ok tree ∧
      state' = (state.1.update (functionHashes platform path tree),
        state.2 ++ [fileReport platform limit previous path tree]) := by
  obtain ⟨tree, hparse, heq⟩ := except_bind_eq_ok.mp h
  exact ⟨tree, hparse, (Except.ok.inj heq).symm⟩

/-- The hashes of the functions of the files in `done`, and of no others. -/
def HoldsFor (platform : Platform) (checkout : Checkout) (done : List String) (functions : Hashes) : Prop :=
  ∀ path tree name, checkout.parse path = .ok tree → ':' ∉ name.toList →
    functions.get? (hashKey path name) =
      if path ∈ done then (tree.lastDefinition name).map (fingerprint platform) else none

theorem HoldsFor.update {done : List String} {functions : Hashes}
    (h : HoldsFor platform checkout done functions) (hparse : checkout.parse path = .ok tree) :
    HoldsFor platform checkout (done ++ [path]) (functions.update (functionHashes platform path tree)) := by
  intro path' tree' name hparse' hname
  rw [Dict.get?_update, h path' tree' name hparse' hname]
  by_cases hpath : path' = path
  · subst hpath
    rw [hparse] at hparse'
    cases hparse'
    have hmem : path' ∈ done ++ [path'] := by simp
    rw [get?_functionHashes, if_pos hmem]
    split_ifs <;> simp
  · have hother : (functionHashes platform path tree).get? (hashKey path' name) = none := by
      rw [Option.eq_none_iff_forall_ne_some]
      intro hash hget
      obtain ⟨f, hf, hkey⟩ := exists_of_get?_functionHashes hget
      exact hpath (hashKey_inj hkey hname (noColon_of_mem hf)).1
    rw [hother]
    simp [hpath]

/-- The loop over the files: what it collects and what it reports. -/
theorem foldlM_scanFile {files done : List String} {state state' : Hashes × List FileReport}
    (h : files.foldlM (scanFile platform limit previous checkout) state = .ok state')
    (hstate : HoldsFor platform checkout done state.1) :
    HoldsFor platform checkout (done ++ files) state'.1 ∧
    ∀ report, report ∈ state'.2 ↔ report ∈ state.2 ∨ ∃ path ∈ files, ∃ tree,
      checkout.parse path = .ok tree ∧ report = fileReport platform limit previous path tree := by
  induction files generalizing done state with
  | nil =>
    cases h
    simpa using hstate
  | cons path files ih =>
    rw [List.foldlM_cons] at h
    obtain ⟨middle, hfile, hrest⟩ := except_bind_eq_ok.mp h
    obtain ⟨tree, hparse, rfl⟩ := scanFile_eq_ok hfile
    obtain ⟨hholds, hreports⟩ := ih hrest (hstate.update hparse)
    refine ⟨by simpa using hholds, fun report => ?_⟩
    rw [hreports]
    simp only [List.mem_append, List.mem_cons, List.not_mem_nil, or_false, exists_eq_or_imp, or_assoc]
    have hthis : (∃ t, checkout.parse path = .ok t ∧ report = fileReport platform limit previous path t) ↔
        report = fileReport platform limit previous path tree := by
      simp [hparse]
    rw [hthis]

theorem scan_eq_ok {report : ScanReport} (h : scan platform limit manifest checkout = .ok report) :
    HoldsFor platform checkout checkout.files report.functions ∧
    ∀ file, file ∈ report.files ↔ ∃ path ∈ checkout.files, ∃ tree, checkout.parse path = .ok tree ∧
      file = fileReport platform limit (previousOf manifest).1 path tree := by
  unfold scan at h
  obtain ⟨state, hloop, heq⟩ := except_bind_eq_ok.mp h
  cases heq
  have hempty : HoldsFor platform checkout [] (Dict.empty : Hashes) := fun _ _ _ _ _ => rfl
  simpa using foldlM_scanFile hloop hempty

/-- A scan of one file. -/
theorem scan_singleton {path : String} {tree : Module} (hfiles : checkout.files = [path])
    (hparse : checkout.parse path = .ok tree) :
    let file := fileReport platform limit (previousOf manifest).1 path tree
    scan platform limit manifest checkout = .ok {
      files := [file]
      functions := Dict.empty.update (functionHashes platform path tree)
      changedFunctions := file.changedFunctions.length + 0
      overLimit := ([file].filter FileReport.overLimit).map FileReport.file
      manifest := (previousOf manifest).2 } := by
  unfold scan
  simp only [hfiles, List.foldlM_cons, List.foldlM_nil, scanFile, hparse]
  rfl

theorem updateManifest_eq_ok {approvedBy reason : String} {document : ManifestDocument}
    (h : updateManifest platform limit approvedBy reason manifest checkout = .ok document) :
    document.schemaVersion = manifestSchema ∧
      HoldsFor platform checkout checkout.files document.functions := by
  unfold updateManifest at h
  split_ifs at h
  · cases h
  · obtain ⟨report, hscan, heq⟩ := except_bind_eq_ok.mp h
    cases heq
    exact ⟨rfl, (scan_eq_ok hscan).1⟩

/-! ## What a scan notices -/

/-- The texts of the functions of a version. -/
def Module.dumps (tree : Module) : Set String := {text | ∃ f ∈ tree.functions, text = f.2.dump}

theorem changedKeys_ne_nil {current : Hashes} : changedKeys previous current ≠ [] ↔
    ∃ key hash, current.get? key = some hash ∧ previous.get? key ≠ some hash := by
  constructor
  · intro hne
    obtain ⟨key, hkey⟩ := List.exists_mem_of_ne_nil _ hne
    obtain ⟨e, he, rfl⟩ := List.mem_map.mp (List.mem_mergeSort.mp hkey)
    obtain ⟨hmem, hne⟩ := List.mem_filter.mp he
    exact ⟨e.1, e.2, Dict.mem_entries.mp hmem, by simpa using hne⟩
  · rintro ⟨key, hash, hget, hne⟩
    refine List.ne_nil_of_mem (List.mem_mergeSort.mpr (List.mem_map.mpr ⟨(key, hash), ?_, rfl⟩))
    exact List.mem_filter.mpr ⟨Dict.get?_eq_some_iff.mp hget, by simpa using hne⟩

variable {old new : Checkout} {tree' : Module}

/-- A fingerprint differs from the stored one exactly where the last definition of a name changed. -/
theorem changedKeys_iff (hprevious : HoldsFor platform old old.files previous) (hpath : path ∈ old.files)
    (hparse : old.parse path = .ok tree) (free : Set.InjOn platform.sha256 (tree.dumps ∪ tree'.dumps)) :
    changedKeys previous (functionHashes platform path tree') ≠ [] ↔
      ∃ name node, tree'.lastDefinition name = some node ∧ tree.lastDefinition name ≠ some node := by
  have hstored : ∀ name, ':' ∉ name.toList →
      previous.get? (hashKey path name) = (tree.lastDefinition name).map (fingerprint platform) := by
    intro name hname
    rw [hprevious path tree name hparse hname, if_pos hpath]
  have hsame : ∀ name node, tree'.lastDefinition name = some node →
      ((tree.lastDefinition name).map (fingerprint platform) = some (fingerprint platform node) ↔
        tree.lastDefinition name = some node) := by
    intro name node hnode
    cases hlast : tree.lastDefinition name with
    | none => simp
    | some stored =>
      simp only [Option.map_some, Option.some.injEq]
      refine ⟨fun h => ?_, fun h => by rw [h]⟩
      have hdump := free (.inl ⟨_, mem_of_lastDefinition hlast, rfl⟩)
        (.inr ⟨_, mem_of_lastDefinition hnode, rfl⟩) (Digest.text_injective h)
      exact Node.dump_injective hdump
  rw [changedKeys_ne_nil]
  constructor
  · rintro ⟨key, hash, hget, hne⟩
    obtain ⟨f, hf, rfl⟩ := exists_of_get?_functionHashes hget
    rw [get?_functionHashes] at hget
    obtain ⟨node, hnode, rfl⟩ := Option.map_eq_some_iff.mp hget
    rw [hstored f.1 (noColon_of_mem hf), Ne, hsame f.1 node hnode] at hne
    exact ⟨f.1, node, hnode, hne⟩
  · rintro ⟨name, node, hnode, hne⟩
    refine ⟨hashKey path name, fingerprint platform node, ?_, ?_⟩
    · rw [get?_functionHashes, hnode]
      rfl
    · rwa [hstored name (noColon_of_mem (mem_of_lastDefinition hnode)), Ne, hsame name node hnode]

variable {limit' : Int} {approvedBy reason : String} {document : ManifestDocument} {report : ScanReport}

/-- A scan of the new version against the manifest of the old one. -/
theorem notices_iff_changed
    (hdocument : updateManifest platform limit approvedBy reason manifest old = .ok document)
    (hreport : scan platform limit' (some document) new = .ok report)
    (hold : path ∈ old.files) (hparse : old.parse path = .ok tree)
    (hnew : path ∈ new.files) (hparse' : new.parse path = .ok tree')
    (free : Set.InjOn platform.sha256 (tree.dumps ∪ tree'.dumps)) :
    report.Notices path ↔
      ∃ name node, tree'.lastDefinition name = some node ∧ tree.lastDefinition name ≠ some node := by
  obtain ⟨hschema, hholds⟩ := updateManifest_eq_ok hdocument
  have hprevious : (previousOf (some document)).1 = document.functions := by
    rw [previousOf, if_pos hschema.ge]
  rw [← changedKeys_iff hholds hold hparse free]
  have hfiles := (scan_eq_ok hreport).2
  rw [hprevious] at hfiles
  constructor
  · rintro ⟨file, hfile, hname, hchanged⟩
    obtain ⟨path', hpath', t, ht, rfl⟩ := (hfiles file).mp hfile
    obtain rfl : path' = path := hname
    rw [hparse'] at ht
    cases ht
    exact hchanged
  · intro hchanged
    exact ⟨_, (hfiles _).mpr ⟨path, hnew, tree', hparse', rfl⟩, rfl, hchanged⟩

/-- The mutation manifest notices a version with a new function exactly when the last definition of some
qualified name is not the one the old version has. -/
theorem manifest_notices_iff
    (hdocument : updateManifest platform limit approvedBy reason manifest old = .ok document)
    (hreport : scan platform limit' (some document) new = .ok report)
    (hold : path ∈ old.files) (hparse : old.parse path = .ok tree)
    (hnew : path ∈ new.files) (hparse' : new.parse path = .ok tree')
    (free : Set.InjOn platform.sha256 (tree.dumps ∪ tree'.dumps)) :
    (¬ (tree'.functions : Multiset (String × Node)) ≤ tree.functions → report.Notices path) ↔
      ((tree'.functions : Multiset (String × Node)) ≤ tree.functions ∨
        ∃ name node, tree'.lastDefinition name = some node ∧ tree.lastDefinition name ≠ some node) := by
  rw [notices_iff_changed hdocument hreport hold hparse hnew hparse' free]
  tauto

/-! ### A property and its setter -/

section Samples

/-- Neither the node nor anything below it is a function. -/
def NoFunctions (node : Node) : Prop := ∀ n ∈ syntaxTree.preorder node, n.functionName? = none

theorem noFunctions_of_childNodes {node : Node} (h : node.functionName? = none)
    (hchildren : ∀ child ∈ node.childNodes, NoFunctions child) : NoFunctions node := by
  intro n hn
  rw [Branching.preorder_eq] at hn
  obtain rfl | hn := List.mem_cons.mp hn
  · exact h
  · obtain ⟨child, hchild, hn⟩ := List.mem_flatMap.mp hn
    exact hchildren child hchild n hn

/-- Functions whose children hold no others, in a class of a module. -/
theorem functions_of_class {tree : Module} {cls : Node} {className : Identifier} {methods : List (Identifier × Node)}
    (hroot : tree.node.childNodes = [cls]) (hclass : cls.head = .classDef className)
    (hmethods : cls.childNodes = methods.map Prod.snd)
    (hnames : ∀ m ∈ methods, m.2.functionName? = some m.1 ∧ ∀ child ∈ m.2.childNodes, NoFunctions child) :
    tree.functions = methods.map fun m => (qualname [className, m.1], m.2) := by
  have hbelow : ∀ above, ∀ m ∈ methods, ∀ place ∈
      syntaxTree.below (fun above node => above ++ [node]) above m.2, place.2.functionName? = none := by
    intro above m hm place hplace
    have hnodes := syntaxTree.map_snd_below (fun above node => above ++ [node]) above m.2
    rw [Branching.preorder_eq, List.cons.injEq] at hnodes
    have hmem : place.2 ∈ (syntaxTree.children m.2).flatMap syntaxTree.preorder := by
      rw [← hnodes.2]
      exact List.mem_map_of_mem hplace
    obtain ⟨child, hchild, hn⟩ := List.mem_flatMap.mp hmem
    exact (hnames m hm).2 child hchild place.2 hn
  have hcls : cls.functionName? = none := by simp [Node.functionName?, hclass]
  have hscope : cls.scopeName? = some className := by simp [Node.scopeName?, hclass]
  have hmodule : tree.node.scopeName? = none := rfl
  have hroot' : syntaxTree.children tree.node = [cls] := hroot
  have hmethods' : syntaxTree.children cls = methods.map Prod.snd := hmethods
  rw [Module.functions, Module.places, Branching.below_eq, hroot', List.flatMap_singleton,
    List.filterMap_cons, hcls, Branching.below_eq, hmethods', List.flatMap_map]
  clear hmethods hmethods'
  induction methods with
  | nil => rfl
  | cons m ms ih =>
    have hrest := ih (fun m hm => hnames m (List.mem_cons_of_mem _ hm))
      (fun above m hm => hbelow above m (List.mem_cons_of_mem _ hm))
    have hnone : (syntaxTree.below (fun above node => above ++ [node]) ([tree.node] ++ [cls] ++ [m.2]) m.2).filterMap
        (fun place => place.2.functionName?.map fun name =>
          (qualname (scopeNames place.1 ++ [name]), place.2)) = [] := by
      rw [List.filterMap_eq_nil_iff]
      intro place hplace
      rw [hbelow _ m List.mem_cons_self place hplace]
      rfl
    have hname := (hnames m List.mem_cons_self).1
    simp only [Option.map_none] at hrest ⊢
    rw [List.flatMap_cons, List.filterMap_append, List.filterMap_cons, hname, hnone, hrest]
    simp [scopeNames, hmodule, hscope]

def sampleClass (name : String) (nonempty : name ≠ "") (letters : name.toList.all Char.isAlpha = true)
    (other : name ∉ namedClasses) (fields : List (Identifier × Value)) : Node :=
  .mk (.other ⟨name, nonempty, letters, other⟩) fields

/-- A variable that is read. -/
def sampleName (id : Literal) : Node :=
  sampleClass "Name" (by decide) (by decide) (by decide)
    [(⟨"id", by decide, by decide⟩, .literal id),
      (⟨"ctx", by decide, by decide⟩, .node (sampleClass "Load" (by decide) (by decide) (by decide) []))]

/-- `@decorator`, then `def x(self): return value`. -/
def sampleMethod (decorator : Node) (value : Literal) : Node :=
  .mk (.functionDef ⟨"x", by decide, by decide⟩)
    [(⟨"args", by decide, by decide⟩,
        .node (sampleClass "arguments" (by decide) (by decide) (by decide)
          [(⟨"posonlyargs", by decide, by decide⟩, .list []),
            (⟨"args", by decide, by decide⟩,
              .list [.node (sampleClass "arg" (by decide) (by decide) (by decide)
                [(⟨"arg", by decide, by decide⟩, .literal ⟨"'self'", by decide⟩)])]),
            (⟨"kwonlyargs", by decide, by decide⟩, .list []),
            (⟨"kw_defaults", by decide, by decide⟩, .list []),
            (⟨"defaults", by decide, by decide⟩, .list [])])),
      (⟨"body", by decide, by decide⟩,
        .list [.node (sampleClass "Return" (by decide) (by decide) (by decide)
          [(⟨"value", by decide, by decide⟩, .node (.mk (.constant value) []))])]),
      (⟨"decorator_list", by decide, by decide⟩, .list [.node decorator]),
      (⟨"type_params", by decide, by decide⟩, .list [])]

/-- `property`, or `x.setter`. -/
def sampleDecorator (setter : Bool) : Node :=
  if setter then
    sampleClass "Attribute" (by decide) (by decide) (by decide)
      [(⟨"value", by decide, by decide⟩, .node (sampleName ⟨"'x'", by decide⟩)),
        (⟨"attr", by decide, by decide⟩, .literal ⟨"'setter'", by decide⟩),
        (⟨"ctx", by decide, by decide⟩, .node (sampleClass "Load" (by decide) (by decide) (by decide) []))]
  else sampleName ⟨"'property'", by decide⟩

/-- A class `C` with a property `x` and its setter, which return constants. -/
def sampleModule (getter setter : Literal) : Module where
  fields :=
    [(⟨"body", by decide, by decide⟩, .list [.node (.mk (.classDef ⟨"C", by decide, by decide⟩)
      [(⟨"bases", by decide, by decide⟩, .list []), (⟨"keywords", by decide, by decide⟩, .list []),
        (⟨"body", by decide, by decide⟩, .list [.node (sampleMethod (sampleDecorator false) getter),
          .node (sampleMethod (sampleDecorator true) setter)]),
        (⟨"decorator_list", by decide, by decide⟩, .list []),
        (⟨"type_params", by decide, by decide⟩, .list [])])]),
      (⟨"type_ignores", by decide, by decide⟩, .list [])]

theorem noFunctions_sampleDecorator (setter : Bool) : NoFunctions (sampleDecorator setter) := by
  have hleaf : ∀ node : Node, node.functionName? = none → node.childNodes = [] → NoFunctions node :=
    fun node hname hnil => noFunctions_of_childNodes hname (by simp [hnil])
  have hname : ∀ id, NoFunctions (sampleName id) := fun id =>
    noFunctions_of_childNodes rfl (List.forall_mem_singleton.mpr (hleaf _ rfl rfl))
  cases setter with
  | false => exact hname _
  | true =>
    exact noFunctions_of_childNodes rfl
      (List.forall_mem_cons.mpr ⟨hname _, List.forall_mem_singleton.mpr (hleaf _ rfl rfl)⟩)

theorem noFunctions_sampleMethod (setter : Bool) (value : Literal) :
    ∀ child ∈ (sampleMethod (sampleDecorator setter) value).childNodes, NoFunctions child := by
  have hleaf : ∀ node : Node, node.functionName? = none → node.childNodes = [] → NoFunctions node :=
    fun node hname hnil => noFunctions_of_childNodes hname (by simp [hnil])
  refine List.forall_mem_cons.mpr ⟨?_, List.forall_mem_cons.mpr ⟨?_, List.forall_mem_singleton.mpr
    (noFunctions_sampleDecorator setter)⟩⟩
  · exact noFunctions_of_childNodes rfl (List.forall_mem_singleton.mpr (hleaf _ rfl rfl))
  · exact noFunctions_of_childNodes rfl (List.forall_mem_singleton.mpr (hleaf _ rfl rfl))

theorem functions_sample (getter setter : Literal) :
    (sampleModule getter setter).functions =
      [("C.x", sampleMethod (sampleDecorator false) getter),
        ("C.x", sampleMethod (sampleDecorator true) setter)] := by
  refine @functions_of_class (sampleModule getter setter) _ ⟨"C", by decide, by decide⟩
    [(⟨"x", by decide, by decide⟩, sampleMethod (sampleDecorator false) getter),
      (⟨"x", by decide, by decide⟩, sampleMethod (sampleDecorator true) setter)] rfl rfl rfl ?_
  exact List.forall_mem_cons.mpr ⟨⟨rfl, noFunctions_sampleMethod false getter⟩,
    List.forall_mem_singleton.mpr ⟨rfl, noFunctions_sampleMethod true setter⟩⟩

def one : Literal := ⟨"1", by decide⟩

def three : Literal := ⟨"3", by decide⟩

def sampleCheckout (getter setter : Literal) : Checkout where
  files := ["src/model.py"]
  parse _ := .ok (sampleModule getter setter)

/-- Digests of the sample's functions. -/
def sampleDigests : List (String × Digest) :=
  [((sampleMethod (sampleDecorator false) one).dump, .ofNat 1),
    ((sampleMethod (sampleDecorator false) three).dump, .ofNat 2),
    ((sampleMethod (sampleDecorator true) .none).dump, .ofNat 3),
    ((sampleMethod (sampleDecorator true) three).dump, .ofNat 4)]

def sampleHashPlatform : Platform := .ofTable sampleDigests

theorem injOn_sampleDumps {getter setter getter' setter' : Literal} (h : getter ∈ [one, three])
    (h' : getter' ∈ [one, three]) (hs : setter ∈ [.none, three]) (hs' : setter' ∈ [.none, three]) :
    Set.InjOn sampleHashPlatform.sha256
      ((sampleModule getter setter).dumps ∪ (sampleModule getter' setter').dumps) := by
  have hdigests : (sampleDigests.map Prod.snd).Nodup := @Digest.nodup_ofNat [1, 2, 3, 4] (by decide +kernel)
  refine (Platform.injOn_ofTable hdigests).mono ?_
  rintro text (⟨f, hf, rfl⟩ | ⟨f, hf, rfl⟩)
  all_goals
    rw [functions_sample] at hf
    simp only [List.mem_cons, List.not_mem_nil, or_false] at h h' hs hs' hf
    simp only [sampleDigests, List.map_cons, List.map_nil, Set.mem_ofPred_eq, List.mem_cons, List.not_mem_nil,
      or_false]
    grind

/-- The manifest of a version of the sample, and the report of a scan of another one against it. -/
def sampleDocument (getter setter : Literal) : ManifestDocument where
  schemaVersion := manifestSchema
  functions := Dict.empty.update
    (functionHashes sampleHashPlatform "src/model.py" (sampleModule getter setter))

def sampleReport (previous : ManifestDocument) (getter setter : Literal) : ScanReport :=
  let tree := sampleModule getter setter
  let file := fileReport sampleHashPlatform 100 previous.functions "src/model.py" tree
  { files := [file]
    functions := Dict.empty.update (functionHashes sampleHashPlatform "src/model.py" tree)
    changedFunctions := file.changedFunctions.length + 0
    overLimit := ([file].filter FileReport.overLimit).map FileReport.file
    manifest := .ok }

theorem updateManifest_sample (getter setter : Literal) :
    updateManifest sampleHashPlatform 100 "" "" none (sampleCheckout getter setter) =
      .ok (sampleDocument getter setter) := rfl

theorem scan_sample (getter setter getter' setter' : Literal) :
    scan sampleHashPlatform 100 (some (sampleDocument getter setter)) (sampleCheckout getter' setter') =
      .ok (sampleReport (sampleDocument getter setter) getter' setter') :=
  scan_singleton rfl rfl

theorem sampleMethod_inj {setter setter' : Bool} {value value' : Literal}
    (h : sampleMethod (sampleDecorator setter) value = sampleMethod (sampleDecorator setter') value') :
    setter = setter' ∧ value = value' := by
  simp only [sampleMethod, Node.mk.injEq, List.cons.injEq, Prod.mk.injEq, Value.list.injEq, Value.node.injEq,
    true_and, and_true] at h
  obtain ⟨hvalue, hdecorator⟩ := h
  refine ⟨?_, by simpa [sampleClass] using hvalue⟩
  cases setter <;> cases setter' <;> first | rfl | cases congrArg (fun node => node.fields.length) hdecorator

theorem mem_functions_sample {setter : Bool} {value getterValue setterValue : Literal} :
    ("C.x", sampleMethod (sampleDecorator setter) value) ∈ (sampleModule getterValue setterValue).functions ↔
      value = if setter then setterValue else getterValue := by
  rw [functions_sample]
  simp only [List.mem_cons, Prod.mk.injEq, true_and, List.not_mem_nil, or_false]
  constructor
  · rintro (h | h)
    all_goals
      obtain ⟨rfl, rfl⟩ := sampleMethod_inj h
      rfl
  · cases setter <;> simp +contextual

/-- A changed getter, of which the scan reports nothing. -/
theorem changed_getter_unnoticed :
    ∃ document report,
      updateManifest sampleHashPlatform 100 "" "" none (sampleCheckout one .none) = .ok document ∧
      scan sampleHashPlatform 100 (some document) (sampleCheckout three .none) = .ok report ∧
      Set.InjOn sampleHashPlatform.sha256
        ((sampleModule one .none).dumps ∪ (sampleModule three .none).dumps) ∧
      ¬ ((sampleModule three .none).functions : Multiset (String × Node)) ≤ (sampleModule one .none).functions ∧
      ¬ report.Notices "src/model.py" := by
  have free : Set.InjOn sampleHashPlatform.sha256
      ((sampleModule one .none).dumps ∪ (sampleModule three .none).dumps) :=
    injOn_sampleDumps (by simp) (by simp) (by simp) (by simp)
  refine ⟨_, _, updateManifest_sample _ _, scan_sample _ _ _ _, free, fun hle => ?_, ?_⟩
  · have hmem : ("C.x", sampleMethod (sampleDecorator false) three) ∈ (sampleModule one .none).functions :=
      Multiset.mem_of_le hle (mem_functions_sample.mpr rfl)
    exact absurd (mem_functions_sample.mp hmem) (by decide)
  · rw [notices_iff_changed (updateManifest_sample _ _) (scan_sample _ _ _ _) (List.mem_singleton.mpr rfl) rfl
      (List.mem_singleton.mpr rfl) rfl free]
    rintro ⟨name, node, hnode, hne⟩
    refine hne ?_
    rw [Module.lastDefinition, functions_sample] at hnode ⊢
    simp only [List.reverse_cons, List.reverse_nil, List.nil_append, List.cons_append, Dict.lookup_cons_ite,
      List.lookup_nil] at hnode ⊢
    -- the setter hides the getter
    split_ifs at hnode ⊢ with hname
    exact hnode

/-- A changed setter, which the scan reports. -/
theorem changed_setter_noticed :
    (sampleReport (sampleDocument one .none) one three).Notices "src/model.py" := by
  have hlast : ∀ setter, (sampleModule one setter).lastDefinition "C.x" =
      some (sampleMethod (sampleDecorator true) setter) := fun setter => by
    rw [Module.lastDefinition, functions_sample]
    rfl
  refine (manifest_notices_iff (updateManifest_sample one .none) (scan_sample one .none one three)
    (List.mem_singleton.mpr rfl) rfl (List.mem_singleton.mpr rfl) rfl
    (injOn_sampleDumps (by simp) (by simp) (by simp) (by simp))).mpr
      (.inr ⟨"C.x", _, hlast three, ?_⟩) ?_
  · rw [hlast .none, Ne, Option.some.injEq]
    exact fun h => absurd (sampleMethod_inj h).2 (by decide)
  · intro hle
    have hmem : ("C.x", sampleMethod (sampleDecorator true) three) ∈ (sampleModule one .none).functions :=
      Multiset.mem_of_le hle (mem_functions_sample.mpr rfl)
    exact absurd (mem_functions_sample.mp hmem) (by decide)

end Samples

end PersonalAssistant.Wct
