import Mathlib.Algebra.BigOperators.Group.List.Basic
import Mathlib.Algebra.GroupWithZero.Nat
import Mathlib.Data.List.Flatten

/-!
# Walks over finitely branching trees

A tree is given by the children of its nodes, which are smaller than the node by some measure. `walk` visits the nodes
level by level, with a queue; `preorder` visits a node before what is below it. `below` pairs every proper
descendant with what its place inherits from the nodes above it, so that a recursion which hands a context
down and a state along is a loop over that list: `eq_foldlM_below`.
-/
namespace Lib

/-- Nodes with finitely many children and no infinite descent. -/
structure Branching (α : Type) where
  children : α → List α
  bounded : ∃ size : α → Nat, ∀ a, ∀ b ∈ children a, size b < size a

namespace Branching

variable {α ι κ σ : Type} (t : Branching α)

noncomputable def size : α → Nat := t.bounded.choose

theorem size_lt {a b : α} (h : b ∈ t.children a) : t.size b < t.size a := t.bounded.choose_spec a b h

/-- Induction from the children of a node to the node. -/
theorem induct {P : α → Prop} (step : ∀ a, (∀ b ∈ t.children a, P b) → P a) (a : α) : P a :=
  step a fun b _ => induct step b
termination_by t.size a
decreasing_by exact t.size_lt ‹_›

def preorder (a : α) : List α := a :: (t.children a).attach.flatMap fun b => preorder b.1
termination_by t.size a
decreasing_by exact t.size_lt b.2

theorem preorder_eq (a : α) : t.preorder a = a :: (t.children a).flatMap t.preorder := by
  rw [preorder, List.flatMap_subtype (g := t.preorder) (fun _ _ => rfl), List.unattach_attach]

theorem length_preorder (a : α) :
    (t.preorder a).length = ((t.children a).map fun b => (t.preorder b).length).sum + 1 := by
  rw [preorder_eq, List.length_cons, List.length_flatMap]

/-- Level by level: the children of the first node go to the end of the queue. -/
def walk : List α → List α
  | [] => []
  | a :: todo => a :: walk (todo ++ t.children a)
termination_by todo => (todo.map fun a => (t.preorder a).length).sum
decreasing_by
  simp only [List.map_append, List.sum_append, List.map_cons, List.sum_cons, t.length_preorder a]
  omega

/-- Both orders visit every node of the queue and everything below it, once for every place. -/
theorem walk_perm (todo : List α) : (t.walk todo).Perm (todo.flatMap t.preorder) := by
  fun_induction walk t todo with
  | case1 => exact .nil
  | case2 a todo ih =>
    rw [List.flatMap_cons, preorder_eq, List.cons_append]
    rw [List.flatMap_append] at ih
    exact .cons a (ih.trans List.perm_append_comm)

variable (inherit : ι → α → ι)

/-- The proper descendants of `a`, each with what its place inherits; `i` is what the children of `a` do. -/
def below (i : ι) (a : α) : List (ι × α) :=
  (t.children a).attach.flatMap fun b => (i, b.1) :: below (inherit i b.1) b.1
termination_by t.size a
decreasing_by exact t.size_lt b.2

theorem below_eq (i : ι) (a : α) : t.below inherit i a =
    (t.children a).flatMap fun b => (i, b) :: t.below inherit (inherit i b) b := by
  rw [below, List.flatMap_subtype (g := fun b => (i, b) :: t.below inherit (inherit i b) b)
    (fun _ _ => rfl), List.unattach_attach]

/-- The descendants are the nodes behind the first of the preorder. -/
theorem map_snd_below (i : ι) (a : α) : a :: (t.below inherit i a).map Prod.snd = t.preorder a := by
  induction a using t.induct generalizing i with
  | step a ih =>
    rw [below_eq, preorder_eq, List.map_flatMap]
    congr 1
    exact List.flatMap_congr fun b hb => ih b hb (inherit i b)

/-- A context that is a function of another one is inherited alike. -/
theorem map_below {inherit' : κ → α → κ} {h : ι → κ} (hh : ∀ i a, h (inherit i a) = inherit' (h i) a)
    (i : ι) (a : α) :
    (t.below inherit i a).map (fun p => (h p.1, p.2)) = t.below inherit' (h i) a := by
  induction a using t.induct generalizing i with
  | step a ih =>
    rw [below_eq, below_eq, List.map_flatMap]
    refine List.flatMap_congr fun b hb => ?_
    rw [List.map_cons, ih b hb, hh]

variable {m : Type → Type} [Monad m] [LawfulMonad m] {act : ι → α → σ → m σ}

/-- A recursion that acts on every child and then descends into it is a loop over the descendants. -/
theorem eq_foldlM_below {f : ι → α → σ → m σ}
    (hf : ∀ i a s, f i a s = (t.children a).foldlM (fun s b => act i b s >>= f (inherit i b) b) s)
    (i : ι) (a : α) (s : σ) :
    f i a s = (t.below inherit i a).foldlM (fun s p => act p.1 p.2 s) s := by
  induction a using t.induct generalizing i s with
  | step a ih =>
    rw [hf, below_eq]
    have hloop : ∀ bs : List α, (∀ b ∈ bs, b ∈ t.children a) → ∀ s,
        bs.foldlM (fun s b => act i b s >>= f (inherit i b) b) s =
          (bs.flatMap fun b => (i, b) :: t.below inherit (inherit i b) b).foldlM
            (fun s p => act p.1 p.2 s) s := by
      intro bs hbs s
      induction bs generalizing s with
      | nil => rfl
      | cons b bs ihb =>
        rw [List.foldlM_cons, List.flatMap_cons, List.cons_append, List.foldlM_cons, bind_assoc]
        refine bind_congr fun u => ?_
        rw [List.foldlM_append, ih b (hbs b List.mem_cons_self)]
        refine bind_congr fun v => ?_
        exact ihb (fun c hc => hbs c (List.mem_cons_of_mem b hc)) v
    exact hloop _ (fun _ h => h) s

/-- `eq_foldlM_below` for a recursion that cannot fail. -/
theorem eq_foldl_below {act : ι → α → σ → σ} {f : ι → α → σ → σ}
    (hf : ∀ i a s, f i a s = (t.children a).foldl (fun s b => f (inherit i b) b (act i b s)) s)
    (i : ι) (a : α) (s : σ) : f i a s = (t.below inherit i a).foldl (fun s p => act p.1 p.2 s) s := by
  refine (t.eq_foldlM_below (m := Id) inherit (fun i a s => ?_) i a s).trans List.idRun_foldlM
  exact (hf i a s).trans List.idRun_foldlM.symm

/-- A loop over the descendants succeeds when every action does wherever the context it inherited is in
order, puts its own context in order, and leaves every context in order. -/
theorem exists_foldlM_below {ε : Type} {act : ι → α → σ → Except ε σ} {I : ι → σ → Prop}
    (keep : ∀ i j b s s', act j b s = .ok s' → I i s → I i s')
    (step : ∀ i b s, I i s → ∃ s', act i b s = .ok s' ∧ I (inherit i b) s') (i : ι) (a : α) (s : σ)
    (hs : I i s) :
    ∃ s', (t.below inherit i a).foldlM (fun s p => act p.1 p.2 s) s = .ok s' ∧ ∀ j, I j s → I j s' := by
  induction a using t.induct generalizing i s with
  | step a ih =>
    rw [below_eq]
    generalize t.children a = bs at ih ⊢
    induction bs generalizing s with
    | nil => exact ⟨s, rfl, fun _ h => h⟩
    | cons b bs ihb =>
      obtain ⟨u, hact, hu⟩ := step i b s hs
      obtain ⟨v, hbelow, hv⟩ := ih b List.mem_cons_self (inherit i b) u hu
      have hkeep : ∀ j, I j s → I j v := fun j hj => hv j (keep j i b s u hact hj)
      obtain ⟨w, hrest, hw⟩ := ihb v (hkeep i hs) fun c hc => ih c (List.mem_cons_of_mem b hc)
      refine ⟨w, ?_, fun j hj => hw j (hkeep j hj)⟩
      rw [List.flatMap_cons, List.cons_append, List.foldlM_cons, hact]
      change List.foldlM _ u _ = _
      rw [List.foldlM_append, hbelow]
      exact hrest

end Branching

end Lib
