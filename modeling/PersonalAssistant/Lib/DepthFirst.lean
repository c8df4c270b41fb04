import Mathlib.Data.List.Chain
import Mathlib.Data.List.Cycle
import Mathlib.Data.List.Lex
import Mathlib.Data.Set.Finite.Lemmas
import Mathlib.Order.Bounds.Basic

/-!
# Depth-first search

A finite graph is searched from every node in increasing order, successors in increasing order, and a node
is entered once. The search notes the path from a node to itself whenever it meets a node of the path it is
on. The path on which a node is entered is the first of all simple paths to it, in the order of lists, so
what is noted does not need the search to be said: `mem_depthFirst`.
-/
namespace Lib

/-- A cycle along a relation that visits no node twice, from any of its nodes. -/
structure IsCycle {V : Type} (r : V → V → Prop) (c : List V) : Prop where
  nonempty : c ≠ []
  nodup : c.Nodup
  chain : (c ++ c.take 1).IsChain r

/-- The nodes and their successors, in increasing order; what is no node is passed over. -/
structure FiniteGraph (V : Type) [LinearOrder V] where
  nodes : List V
  next : V → List V
  nodes_sorted : nodes.Pairwise (· < ·)
  next_sorted : ∀ u, (next u).Pairwise (· < ·)

namespace FiniteGraph

variable {V : Type} [LinearOrder V] (g : FiniteGraph V)

def Edge (u v : V) : Prop := v ∈ g.next u ∧ v ∈ g.nodes

/-- A path along edges that visits no node twice. -/
structure IsPath (p : List V) : Prop where
  nodup : p.Nodup
  chain : p.IsChain g.Edge
  subset : p ⊆ g.nodes

def pathsTo (u : V) : Set (List V) := {p | g.IsPath p ∧ p.getLast? = some u}

/-- The part of a path from a node on. -/
def suffixFrom (p : List V) (v : V) : List V := p.dropWhile (· ≠ v)

/-! ## The search -/

structure Search (V : Type) where
  visited : List V
  found : List (List V)

variable {g} in
theorem card_unvisited_lt {path : List V} {u : V} (hu : u ∈ g.nodes) (hpath : u ∉ path) :
    (g.nodes.toFinset \ (path ++ [u]).toFinset).card < (g.nodes.toFinset \ path.toFinset).card := by
  apply Finset.card_lt_card
  rw [Finset.ssubset_iff_of_subset (by grind [List.mem_toFinset])]
  exact ⟨u, by grind [List.mem_toFinset], by grind [List.mem_toFinset]⟩

/-- Meets `node` at the end of `path`. The recursion is as deep as the path is long, without a limit. -/
def visit (path : List V) (node : V) (_ : node ∈ g.nodes) (s : Search V) : Search V :=
  if _ : node ∈ path then { s with found := s.found ++ [suffixFrom path node] }
  else if node ∈ s.visited then s
  else
    let s' := (g.next node).foldl (fun s child =>
      if hchild : child ∈ g.nodes then visit (path ++ [node]) child hchild s else s) s
    { s' with visited := node :: s'.visited }
termination_by (g.nodes.toFinset \ path.toFinset).card
decreasing_by exact card_unvisited_lt ‹_› ‹_›

/-- Meets the nodes among `children`, one after another. -/
def visitAll (path : List V) (children : List V) (s : Search V) : Search V :=
  children.foldl (fun s child => if hchild : child ∈ g.nodes then g.visit path child hchild s else s) s

/-- The cycles noted by the search of the whole graph. -/
def depthFirst : List (List V) := (g.visitAll [] g.nodes ⟨[], []⟩).found

/-- A cycle closed by an edge from the end of the first path to a node, back onto that path. -/
def Closes (c : List V) : Prop :=
  ∃ u v p, IsLeast (g.pathsTo u) p ∧ g.Edge u v ∧ v ∈ p ∧ c = suffixFrom p v

variable {g} {path p q r : List V} {s : Search V} {u v w : V}

theorem visit_eq (hnode : u ∈ g.nodes) (hpath : u ∉ path) (hvisited : u ∉ s.visited) :
    g.visit path u hnode s =
      { g.visitAll (path ++ [u]) (g.next u) s with
        visited := u :: (g.visitAll (path ++ [u]) (g.next u) s).visited } := by
  rw [visit, dif_neg hpath, if_neg hvisited]
  rfl

/-! ## Paths -/

/-- What the search meets at the end of a path. -/
def children (g : FiniteGraph V) (path : List V) : List V :=
  match path.getLast? with
  | none => g.nodes
  | some u => g.next u

theorem children_append : g.children (path ++ [u]) = g.next u := by
  simp [children]

theorem children_sorted : (g.children path).Pairwise (· < ·) := by
  unfold children
  split
  · exact g.nodes_sorted
  · exact g.next_sorted _

theorem IsPath.nil : g.IsPath [] := ⟨by simp, by simp, by simp⟩

theorem isPath_append : g.IsPath (path ++ [u]) ↔
    g.IsPath path ∧ u ∈ g.children path ∧ u ∈ g.nodes ∧ u ∉ path := by
  have hchain : (path ++ [u]).IsChain g.Edge ↔ path.IsChain g.Edge ∧ ∀ w ∈ path.getLast?, g.Edge w u := by
    simp [List.isChain_append]
  have hchildren : u ∈ g.nodes → (u ∈ g.children path ↔ ∀ w ∈ path.getLast?, g.Edge w u) := by
    intro hu
    unfold children Edge
    cases path.getLast? <;> simp [hu]
  constructor
  · intro ⟨hnodup, hlink, hsubset⟩
    have hu : u ∈ g.nodes := hsubset (by simp)
    obtain ⟨hpath, hlast⟩ := hchain.mp hlink
    exact ⟨⟨by grind, hpath, by grind⟩, (hchildren hu).mpr hlast, hu, by grind⟩
  · intro ⟨⟨hnodup, hlink, hsubset⟩, hchild, hu, hfresh⟩
    exact ⟨by grind, hchain.mpr ⟨hlink, (hchildren hu).mp hchild⟩, by grind⟩

theorem IsPath.left (h : g.IsPath (p ++ q)) : g.IsPath p :=
  ⟨h.nodup.of_append_left, (List.isChain_append.mp h.chain).1, (List.append_subset.mp h.subset).1⟩

theorem IsPath.right (h : g.IsPath (p ++ q)) : g.IsPath q :=
  ⟨h.nodup.of_append_right, (List.isChain_append.mp h.chain).2.1, (List.append_subset.mp h.subset).2⟩

/-- Where paths part, `q` goes to the smaller node. -/
def Before (q p : List V) : Prop :=
  ∃ s u r v t, q = s ++ u :: r ∧ p = s ++ v :: t ∧ u < v

theorem prefix_or_before_of_lt (h : q < p) : q <+: p ∨ Before q p := by
  induction q generalizing p with
  | nil => exact .inl List.nil_prefix
  | cons u q ih =>
    cases p with
    | nil => cases h
    | cons v p =>
      obtain hlt | ⟨rfl, hlt⟩ := List.cons_lt_cons_iff.mp h
      · exact .inr ⟨[], u, q, v, p, rfl, rfl, hlt⟩
      · obtain hinitial | ⟨s, a, r, b, t, rfl, rfl, hab⟩ := ih hlt
        · exact .inl ((List.prefix_cons_inj u).mpr hinitial)
        · exact .inr ⟨u :: s, a, r, b, t, rfl, rfl, hab⟩

/-- A path before a longer one parts from it earlier, or at its last node. -/
theorem before_append (h : Before q (path ++ [v])) :
    Before q path ∨ ∃ u r, q = path ++ u :: r ∧ u < v := by
  obtain ⟨s, a, r, b, t, rfl, heq, hlt⟩ := h
  obtain rfl | ⟨t, c, rfl⟩ := t.eq_nil_or_concat'
  · obtain ⟨rfl, hbv⟩ := List.append_inj' heq rfl
    exact .inr ⟨a, r, rfl, by grind⟩
  · have heq' : path ++ [v] = (s ++ b :: t) ++ [c] := by simp [heq]
    obtain ⟨rfl, -⟩ := List.append_inj' heq' rfl
    exact .inl ⟨s, a, r, b, t, rfl, rfl, hlt⟩

theorem before_of_before_append (h : Before q path) : Before q (path ++ p) := by
  obtain ⟨s, a, r, b, t, rfl, rfl, hlt⟩ := h
  exact ⟨s, a, r, b, t ++ p, rfl, by simp, hlt⟩

/-! ## What the search keeps -/

/-- What holds while the search is at the end of `path`. -/
structure Invariant (g : FiniteGraph V) (path : List V) (s : Search V) : Prop where
  isPath : g.IsPath path
  first : ∀ u ∈ path.getLast?, IsLeast (g.pathsTo u) path
  closed : ∀ u ∈ s.visited, ∀ v, g.Edge u v → v ∈ s.visited ∨ v ∈ path
  earlier : ∀ q, g.IsPath q → Before q path → ∀ u ∈ q.getLast?, u ∈ s.visited ∨ u ∈ path
  sound : ∀ c ∈ s.found, g.Closes c
  complete : ∀ u ∈ s.visited, ∀ v p, IsLeast (g.pathsTo u) p → g.Edge u v → v ∈ p → suffixFrom p v ∈ s.found

/-- Nothing leaves the visited nodes but through the path. -/
theorem Invariant.reach (h : g.Invariant path s) (hu : u ∈ s.visited) (hchain : (u :: r).IsChain g.Edge)
    (havoid : ∀ v ∈ r, v ∉ path) : ∀ v ∈ u :: r, v ∈ s.visited := by
  induction r generalizing u with
  | nil => simpa using hu
  | cons w r ih =>
    obtain ⟨huw, hrest⟩ := List.isChain_cons_cons.mp hchain
    have hw : w ∈ s.visited := (h.closed u hu w huw).resolve_right (havoid w List.mem_cons_self)
    have hall := ih hw hrest fun v hv => havoid v (List.mem_cons_of_mem _ hv)
    exact List.forall_mem_cons.mpr ⟨hu, hall⟩

/-- The node the search meets at the end of `path`, with the smaller ones behind it. -/
structure Meets (g : FiniteGraph V) (path : List V) (s : Search V) (u : V) : Prop where
  child : u ∈ g.children path
  node : u ∈ g.nodes
  smaller : ∀ v, g.IsPath (path ++ [v]) → v < u → v ∈ s.visited

/-- A path that parts from the one to a node before its end leads to visited nodes. -/
theorem Invariant.before_append (h : g.Invariant path s) (hu : g.Meets path s u) (hq : g.IsPath q)
    (hbefore : Before q (path ++ [u])) (hlast : v ∈ q.getLast?) : v ∈ s.visited ∨ v ∈ path := by
  obtain hearlier | ⟨w, r, rfl, hlt⟩ := FiniteGraph.before_append hbefore
  · exact h.earlier q hq hearlier v hlast
  · have hpath : g.IsPath (path ++ [w]) := IsPath.left (q := r) (by simpa using hq)
    have havoid : ∀ v ∈ r, v ∉ path := by
      have := hq.nodup
      grind
    have hall := h.reach (hu.smaller w hpath hlt) hq.right.chain havoid
    rw [List.getLast?_append_cons] at hlast
    exact .inl (hall v (List.mem_of_getLast? hlast))

/-- A node is entered on the first path to it. -/
theorem Invariant.isLeast (h : g.Invariant path s) (hu : g.Meets path s u) (hpath : u ∉ path)
    (hvisited : u ∉ s.visited) : IsLeast (g.pathsTo u) (path ++ [u]) := by
  refine ⟨⟨isPath_append.mpr ⟨h.isPath, hu.child, hu.node, hpath⟩, by simp⟩, fun q ⟨hq, hlast⟩ => ?_⟩
  by_contra hlt
  obtain hinitial | hbefore := prefix_or_before_of_lt (not_le.mp hlt)
  · obtain rfl | hinitial := List.prefix_concat_iff.mp hinitial
    · exact hlt le_rfl
    · exact hpath (hinitial.subset (List.mem_of_getLast? hlast))
  · exact (h.before_append hu hq hbefore hlast).elim hvisited hpath

/-- The search goes on from the end of a longer path. -/
theorem Invariant.push (h : g.Invariant path s) (hu : g.Meets path s u) (hpath : u ∉ path)
    (hvisited : u ∉ s.visited) : g.Invariant (path ++ [u]) s where
  isPath := isPath_append.mpr ⟨h.isPath, hu.child, hu.node, hpath⟩
  first := by simpa using h.isLeast hu hpath hvisited
  closed v hv w hedge := by
    have := h.closed v hv w hedge
    grind
  earlier q hq hbefore v hlast := by
    have := h.before_append hu hq hbefore hlast
    grind
  sound := h.sound
  complete := h.complete

/-- A node is left when all its successors are behind it. -/
theorem Invariant.pop (h : g.Invariant (path ++ [u]) s)
    (hchildren : ∀ v, g.Edge u v → v ∈ s.visited ∨ v ∈ path ++ [u])
    (hclosing : ∀ v, g.Edge u v → v ∈ path ++ [u] → suffixFrom (path ++ [u]) v ∈ s.found)
    (hfirst : ∀ v ∈ path.getLast?, IsLeast (g.pathsTo v) path) :
    g.Invariant path { s with visited := u :: s.visited } where
  isPath := h.isPath.left
  first := hfirst
  closed v hv w hedge := by
    have : w ∈ s.visited ∨ w ∈ path ++ [u] := by
      obtain rfl | hv := List.mem_cons.mp hv
      · exact hchildren w hedge
      · exact h.closed v hv w hedge
    grind
  earlier q hq hbefore v hlast := by
    have := h.earlier q hq (before_of_before_append hbefore) v hlast
    grind
  sound := h.sound
  complete v hv w p hp hedge hw := by
    obtain rfl | hv := List.mem_cons.mp hv
    · obtain rfl : p = path ++ [v] := hp.unique (h.first v (by simp))
      exact hclosing w hedge hw
    · exact h.complete v hv w p hp hedge hw

/-! ## A whole search -/

/-- What the search has done once it has met the nodes among `us` at the end of `path`. -/
structure Visits (g : FiniteGraph V) (path us : List V) (s s' : Search V) : Prop where
  invariant : g.Invariant path s'
  visited : s.visited ⊆ s'.visited
  found : s.found ⊆ s'.found
  done : ∀ u ∈ us, u ∈ g.nodes → u ∈ s'.visited ∨ u ∈ path
  closes : ∀ u ∈ us, u ∈ g.nodes → u ∈ path → suffixFrom path u ∈ s'.found

theorem Visits.trans {us vs : List V} {s₁ s₂ s₃ : Search V} (h : g.Visits path us s₁ s₂)
    (h' : g.Visits path vs s₂ s₃) : g.Visits path (us ++ vs) s₁ s₃ where
  invariant := h'.invariant
  visited := List.Subset.trans h.visited h'.visited
  found := List.Subset.trans h.found h'.found
  done u hu hnode := by
    obtain hu | hu := List.mem_append.mp hu
    · exact (h.done u hu hnode).imp_left (h'.visited ·)
    · exact h'.done u hu hnode
  closes u hu hnode hpath := by
    obtain hu | hu := List.mem_append.mp hu
    · exact h'.found (h.closes u hu hnode hpath)
    · exact h'.closes u hu hnode hpath

theorem Visits.of_notMem (h : g.Invariant path s) (hu : u ∉ g.nodes) : g.Visits path [u] s s where
  invariant := h
  visited := List.Subset.refl _
  found := List.Subset.refl _
  done := by simp [hu]
  closes := by simp [hu]

/-- The nodes among the successors are met one after another, each with the smaller ones behind it. -/
theorem visitAll_spec
    (hvisit : ∀ u hu s, g.Invariant path s → g.Meets path s u → g.Visits path [u] s (g.visit path u hu s))
    {l : List V} (hsuffix : l <:+ g.children path) (h : g.Invariant path s)
    (hdone : ∀ v ∈ g.children path, v ∈ g.nodes → v ∉ l → v ∈ s.visited ∨ v ∈ path) :
    g.Visits path l s (g.visitAll path l s) := by
  induction l generalizing s with
  | nil => exact ⟨h, List.Subset.refl _, List.Subset.refl _, by simp, by simp⟩
  | cons u l ih =>
    have hstep : ∃ s', g.Visits path [u] s s' ∧ g.visitAll path (u :: l) s = g.visitAll path l s' := by
      by_cases hu : u ∈ g.nodes
      · refine ⟨g.visit path u hu s, hvisit u hu s h ⟨hsuffix.subset List.mem_cons_self, hu, ?_⟩, by
          simp [visitAll, hu]⟩
        intro v hv hlt
        obtain ⟨-, hchild, hnode, hfresh⟩ := isPath_append.mp hv
        have hsorted := List.pairwise_cons.mp (children_sorted.sublist hsuffix.sublist)
        have hmem : v ∉ u :: l := by
          rintro (_ | ⟨_, hmem⟩)
          · exact lt_irrefl _ hlt
          · exact lt_asymm hlt (hsorted.1 v hmem)
        exact (hdone v hchild hnode hmem).resolve_right hfresh
      · exact ⟨s, .of_notMem h hu, by simp [visitAll, hu]⟩
    obtain ⟨s', hvisits, heq⟩ := hstep
    rw [heq]
    refine hvisits.trans (ih ((List.suffix_cons u l).trans hsuffix) hvisits.invariant fun v hchild hnode hv => ?_)
    by_cases hvu : v = u
    · exact hvisits.done v (List.mem_singleton.mpr hvu) hnode
    · exact (hdone v hchild hnode (by simp [hvu, hv])).imp_left (hvisits.visited ·)

/-- Visiting a node, by induction on the nodes that are not on the path. -/
theorem visit_spec {path : List V} {s : Search V} {u : V} (hnode : u ∈ g.nodes) (h : g.Invariant path s)
    (hu : g.Meets path s u) : g.Visits path [u] s (g.visit path u hnode s) := by
  by_cases hpath : u ∈ path
  · have hfound : g.visit path u hnode s = { s with found := s.found ++ [suffixFrom path u] } := by
      rw [visit, dif_pos hpath]
    have hcloses : g.Closes (suffixFrom path u) := by
      obtain ⟨front, w, rfl⟩ := (List.eq_nil_or_concat' path).resolve_left (List.ne_nil_of_mem hpath)
      have hchildren : g.children (front ++ [w]) = g.next w := children_append
      have hchild : u ∈ g.next w := hchildren ▸ hu.child
      exact ⟨w, u, front ++ [w], h.first w (by simp), ⟨hchild, hnode⟩, hpath, rfl⟩
    rw [hfound]
    refine ⟨{ h with sound := ?_, complete := ?_ }, List.Subset.refl _, List.subset_append_left _ _, ?_, ?_⟩
    · exact fun c hc => (List.mem_append.mp hc).elim (h.sound c) fun hc => List.mem_singleton.mp hc ▸ hcloses
    · exact fun v hv w p hp hedge hw => List.mem_append_left _ (h.complete v hv w p hp hedge hw)
    · simp [hpath]
    · simp
  by_cases hvisited : u ∈ s.visited
  · have hsame : g.visit path u hnode s = s := by rw [visit, dif_neg hpath, if_pos hvisited]
    rw [hsame]
    exact ⟨h, List.Subset.refl _, List.Subset.refl _, by simp [hvisited], by simp [hpath]⟩
  · have hall := visitAll_spec (fun v hv s hs hmeets => visit_spec hv hs hmeets) (List.suffix_refl _)
      (h.push hu hpath hvisited) fun v hchild _ hv => absurd hchild hv
    rw [children_append] at hall
    rw [visit_eq hnode hpath hvisited]
    refine ⟨hall.invariant.pop (fun v hedge => hall.done v hedge.1 hedge.2)
      (fun v hedge hmem => hall.closes v hedge.1 hedge.2 hmem) h.first, ?_, hall.found, by simp, by simp [hpath]⟩
    exact List.Subset.trans hall.visited (List.subset_cons_self _ _)
termination_by (g.nodes.toFinset \ path.toFinset).card
decreasing_by exact card_unvisited_lt ‹_› ‹_›

/-- The search notes the cycles that an edge closes onto the first path to its source. -/
theorem mem_depthFirst {c : List V} : c ∈ g.depthFirst ↔ g.Closes c := by
  have hinit : g.Invariant [] ⟨[], []⟩ := by
    refine ⟨.nil, by simp, by simp, fun q _ hbefore => ?_, by simp, by simp⟩
    obtain ⟨s, u, r, v, t, -, heq, -⟩ := hbefore
    simp at heq
  have hall := visitAll_spec (fun u hu s hs hmeets => visit_spec hu hs hmeets)
    (List.suffix_refl (g.children [])) hinit fun v hchild _ hv => absurd hchild hv
  refine ⟨hall.invariant.sound c, fun ⟨u, v, p, hp, hedge, hv, hc⟩ => ?_⟩
  have hu : u ∈ g.nodes := hp.1.1.subset (List.mem_of_getLast? hp.1.2)
  have hvisited := (hall.done u hu hu).resolve_right (by simp)
  exact hc ▸ hall.invariant.complete u hvisited v p hp hedge hv

/-! ## Cycles -/

theorem exists_suffixFrom_eq (hv : v ∈ p) : ∃ q r, p = q ++ v :: r ∧ suffixFrom p v = v :: r := by
  obtain ⟨q, r, rfl, hq⟩ := List.eq_append_cons_of_mem hv
  refine ⟨q, r, rfl, ?_⟩
  rw [suffixFrom, List.dropWhile_append_of_pos fun a ha => by grind]
  simp

/-- What the search notes are cycles. -/
theorem Closes.isCycle {c : List V} (h : g.Closes c) : IsCycle g.Edge c := by
  obtain ⟨u, v, p, ⟨⟨hp, hlast⟩, -⟩, hedge, hv, rfl⟩ := h
  obtain ⟨q, r, rfl, heq⟩ := exists_suffixFrom_eq hv
  have hright : g.IsPath (v :: r) := hp.right
  rw [List.getLast?_append_cons] at hlast
  rw [heq]
  refine ⟨by simp, hright.nodup, List.isChain_append.mpr ⟨hright.chain, by simp, ?_⟩⟩
  intro w hw
  rw [hlast, Option.mem_some_iff] at hw
  simpa [← hw] using hedge

end FiniteGraph

namespace IsCycle

variable {V : Type} {r : V → V → Prop} {c : List V}

instance [DecidableEq V] [DecidableRel r] : Decidable (IsCycle r c) :=
  decidable_of_iff (c ≠ [] ∧ c.Nodup ∧ (c ++ c.take 1).IsChain r)
    ⟨fun h => ⟨h.1, h.2.1, h.2.2⟩, fun h => ⟨h.nonempty, h.nodup, h.chain⟩⟩

theorem iff_cycle : IsCycle r c ↔ c ≠ [] ∧ c.Nodup ∧ (c : Cycle V).Chain r := by
  cases c with
  | nil => exact ⟨fun h => absurd rfl h.nonempty, fun h => absurd rfl h.1⟩
  | cons a c =>
    rw [Cycle.chain_coe_cons]
    exact ⟨fun h => ⟨h.nonempty, h.nodup, h.chain⟩, fun h => ⟨h.1, h.2.1, h.2.2⟩⟩

/-- A cycle may be read from any of its nodes. -/
theorem rotate (h : IsCycle r c) (n : Nat) : IsCycle r (c.rotate n) := by
  obtain ⟨hne, hnodup, hchain⟩ := iff_cycle.mp h
  have hsame : ((c.rotate n : List V) : Cycle V) = c := Cycle.coe_eq_coe.mpr (List.IsRotated.forall c n)
  exact iff_cycle.mpr ⟨by simpa using hne, List.nodup_rotate.mpr hnodup, hsame ▸ hchain⟩

/-- A cycle read from one of its nodes. -/
theorem exists_cons (h : IsCycle r c) {a : V} (ha : a ∈ c) : ∃ t, IsCycle r (a :: t) ∧ (a :: t).Perm c := by
  obtain ⟨p, t, rfl⟩ := List.append_of_mem ha
  have hrotate : (p ++ a :: t).rotate p.length = a :: (t ++ p) := by simp [List.rotate_append_length_eq]
  exact ⟨t ++ p, hrotate ▸ h.rotate p.length, hrotate ▸ List.rotate_perm _ _⟩

theorem exists_next (h : IsCycle r c) {a : V} (ha : a ∈ c) : ∃ b ∈ c, r a b := by
  obtain ⟨t, ht, hperm⟩ := h.exists_cons ha
  have hchain : (a :: (t ++ [a])).IsChain r := ht.chain
  obtain ⟨b, t', heq⟩ := List.exists_cons_of_ne_nil (List.append_ne_nil_of_right_ne_nil t (List.cons_ne_nil a []))
  rw [heq, List.isChain_cons_cons] at hchain
  have hb : b ∈ t ++ [a] := heq ▸ List.mem_cons_self
  exact ⟨b, hperm.subset (by grind), hchain.1⟩

theorem imp {r' : V → V → Prop} (h : IsCycle r c) (himp : ∀ a ∈ c, ∀ b ∈ c, r a b → r' a b) : IsCycle r' c where
  nonempty := h.nonempty
  nodup := h.nodup
  chain := h.chain.imp_of_mem_imp fun a b ha hb hab => by
    have hmem : ∀ x ∈ c ++ c.take 1, x ∈ c := fun x hx =>
      (List.mem_append.mp hx).elim id fun hx => List.mem_of_mem_take hx
    exact himp a (hmem a ha) b (hmem b hb) hab

end IsCycle

namespace FiniteGraph

variable {V : Type} [LinearOrder V] {g : FiniteGraph V} {p q t : List V} {u : V}

theorem prefix_of_le_append (h : p ≤ q) (h' : q ≤ p ++ t) : p <+: q := by
  induction p generalizing q with
  | nil => exact List.nil_prefix
  | cons a p ih =>
    cases q with
    | nil => exact absurd h (not_le.mpr (List.nil_lt_cons a p))
    | cons b q =>
      have hle : ¬ (b < a ∨ b = a ∧ q < p) := List.cons_lt_cons_iff.not.mp (not_lt.mpr h)
      have hle' : ¬ (a < b ∨ a = b ∧ p ++ t < q) := List.cons_lt_cons_iff.not.mp (not_lt.mpr h')
      obtain rfl : a = b := by grind
      exact (List.prefix_cons_inj a).mpr (ih (by grind) (by grind))

theorem finite_isPath (g : FiniteGraph V) : {p | g.IsPath p}.Finite := by
  refine (List.finite_toSet (g.nodes.sublists.flatMap List.permutations)).subset fun p hp => ?_
  obtain ⟨l, hperm, hsub⟩ := List.subperm_of_subset hp.nodup hp.subset
  exact List.mem_flatMap.mpr ⟨l, List.mem_sublists.mpr hsub, List.mem_permutations.mpr hperm.symm⟩

theorem exists_isLeast {P : List V → Prop} (hp : g.IsPath p) (h : P p) :
    ∃ q, IsLeast {q | g.IsPath q ∧ P q} q := by
  have hfinite : {q | g.IsPath q ∧ P q}.Finite := g.finite_isPath.subset fun q hq => hq.1
  obtain ⟨q, hq, hleast⟩ := Set.exists_min_image _ id hfinite ⟨p, hp, h⟩
  exact ⟨q, hq, hleast⟩

theorem mem_nodes_of_isCycle {c : List V} (h : IsCycle g.Edge c) {v : V} (hv : v ∈ c) : v ∈ g.nodes := by
  obtain ⟨t, ht, -⟩ := h.exists_cons hv
  obtain ⟨q, w, hw⟩ := (List.eq_nil_or_concat' (v :: t)).resolve_left (by simp)
  have hlink := (List.isChain_append.mp ht.chain).2.2 w (by simp [hw]) v (by simp)
  exact hlink.2

/-- A graph with a cycle has one that the search notes: the edge that leads to the end of the first path to
a node of the cycle closes one. -/
theorem exists_closes {c : List V} (h : IsCycle g.Edge c) : ∃ c', g.Closes c' := by
  obtain ⟨a, ha⟩ := List.exists_mem_of_ne_nil c h.nonempty
  obtain ⟨p, ⟨hp, x, hx, hlast⟩, hleast⟩ := exists_isLeast (g := g) (p := [a])
    (P := fun p => ∃ x ∈ c, p.getLast? = some x)
    ⟨by simp, by simp, by simpa using mem_nodes_of_isCycle h ha⟩ ⟨a, ha, rfl⟩
  obtain ⟨t, ht, hperm⟩ := h.exists_cons hx
  obtain ⟨front, y, hy⟩ := (List.eq_nil_or_concat' (x :: t)).resolve_left (by simp)
  have hedge : g.Edge y x := (List.isChain_append.mp ht.chain).2.2 y (by simp [hy]) x (by simp)
  obtain ⟨before, w, rfl⟩ := (List.eq_nil_or_concat' p).resolve_left (by rintro rfl; cases hlast)
  obtain rfl : w = x := by simpa using hlast
  -- the path meets the cycle in its last node only
  have hfresh : ∀ z ∈ t, z ∉ before ++ [w] := by
    intro z hz hmem
    obtain ⟨q, r, heq⟩ := List.append_of_mem hmem
    have hpath : g.IsPath (q ++ [z]) := IsPath.left (q := r) (by simpa [heq] using hp)
    have hle := hleast ⟨hpath, z, hperm.subset (List.mem_cons_of_mem _ hz), by simp⟩
    rw [heq] at hle
    have hinitial := prefix_of_le_append (t := []) hle (not_lt.mp (List.IsPrefix.le (by simp)))
    obtain rfl : r = [] := by simpa using hinitial.length_le
    obtain ⟨-, hzw⟩ := List.append_inj' heq rfl
    have := ht.nodup
    grind
  have hround : before ++ [w] ++ t = before ++ front ++ [y] := by simp [hy]
  have hpath : g.IsPath (before ++ [w] ++ t) := by
    have hcycle := (List.isChain_append.mp ht.chain).1
    refine ⟨hp.nodup.append ht.nodup.of_cons fun z hz hzt => hfresh z hzt hz, ?_, ?_⟩
    · simpa using List.isChain_split.mpr ⟨hp.chain, hcycle⟩
    · exact List.append_subset.mpr ⟨hp.subset, fun z hz =>
        mem_nodes_of_isCycle ht (List.mem_cons_of_mem _ hz)⟩
  obtain ⟨first, ⟨hfirst, hend⟩, hleast'⟩ := exists_isLeast (P := fun p => p.getLast? = some y) hpath
    (by simp [hround])
  have hyc : y ∈ c := hperm.subset (by simp [hy])
  have hinitial := prefix_of_le_append (hleast ⟨hfirst, y, hyc, hend⟩)
    (hleast' ⟨hpath, by simp [hround]⟩)
  exact ⟨_, y, w, first, ⟨⟨hfirst, hend⟩, hleast'⟩, hedge, hinitial.subset (by simp), rfl⟩

end FiniteGraph

end Lib
