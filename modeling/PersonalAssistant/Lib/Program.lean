import Mathlib.Logic.Function.Basic
import Mathlib.Logic.Relation
import PersonalAssistant.Lib.Effect

/-!
# Programs over atomic calls, and their interleavings

A `Program` issues calls of a signature one after another and continues with the response; it returns or
raises. A pool runs many programs over one shared state, one atomic call at a time, in any order. A
program that is never scheduled again has crashed.

Two rules derive facts about every interleaving. `Pool.inv_of_calls` needs a fact that every single
call preserves. `Pool.sound` is the rely/guarantee rule: each program is `Safe` against what the others
guarantee, its knowledge between two calls being any stable assertion.
-/
namespace Lib

/-- Atomic calls and the type of their responses. -/
structure Signature where
  Call : Type
  Resp : Call → Type

/-- A sequential program over the calls of a signature. -/
inductive Program (S : Signature) (ε α : Type) where
  | ret (a : α)
  | raise (e : ε)
  | call (c : S.Call) (k : S.Resp c → Program S ε α)

namespace Program

variable {S : Signature} {ε α β : Type}

protected def bind : Program S ε α → (α → Program S ε β) → Program S ε β
  | ret a, f => f a
  | raise e, _ => raise e
  | call c k, f => call c fun r => (k r).bind f

instance : Monad (Program S ε) where
  pure := ret
  bind := Program.bind

/-- `try: p except e: h e`. -/
def handle : Program S ε α → (ε → Program S ε α) → Program S ε α
  | ret a, _ => ret a
  | raise e, h => h e
  | call c k, h => call c fun r => (k r).handle h

/-- `try: p finally: cleanup`. An exception of the clean-up replaces the outcome. -/
def ensure : Program S ε α → Program S ε Unit → Program S ε α
  | ret a, cleanup => cleanup.bind fun _ => ret a
  | raise e, cleanup => cleanup.bind fun _ => raise e
  | call c k, cleanup => call c fun r => (k r).ensure cleanup

/-- One call, returning its response. -/
def perform (c : S.Call) : Program S ε (S.Resp c) := call c ret

def ofExcept : Except ε α → Program S ε α
  | .ok a => ret a
  | .error e => raise e

@[simp] theorem pure_eq (a : α) : (pure a : Program S ε α) = ret a := rfl
@[simp] theorem ret_bind (a : α) (f : α → Program S ε β) : (ret a >>= f) = f a := rfl
@[simp] theorem raise_bind (e : ε) (f : α → Program S ε β) : (raise e >>= f) = raise e := rfl
@[simp] theorem call_bind (c : S.Call) (k : S.Resp c → Program S ε α) (f : α → Program S ε β) :
    (call c k >>= f) = call c fun r => k r >>= f := rfl
@[simp] theorem perform_bind (c : S.Call) (f : S.Resp c → Program S ε β) :
    (perform c >>= f) = call c f := rfl
@[simp] theorem ofExcept_ok_bind (a : α) (f : α → Program S ε β) :
    (ofExcept (.ok a) >>= f) = f a := rfl
@[simp] theorem ofExcept_error_bind (e : ε) (f : α → Program S ε β) :
    (ofExcept (.error e) >>= f) = raise e := rfl

/-! ## Running alone -/

/-- Run the program alone, with a deterministic meaning for its calls. -/
def exec {σ : Type} (meaning : (c : S.Call) → σ → S.Resp c × σ) : Program S ε α → Op σ ε α
  | ret a => fun s => (.ok a, s)
  | raise e => fun s => (.error e, s)
  | call c k => fun s => (k (meaning c s).1).exec meaning (meaning c s).2

section Exec

variable {σ : Type} {meaning : (c : S.Call) → σ → S.Resp c × σ}

@[simp] theorem exec_ret (a : α) (s : σ) : (ret a : Program S ε α).exec meaning s = (.ok a, s) := rfl

@[simp] theorem exec_raise (e : ε) (s : σ) :
    (raise e : Program S ε α).exec meaning s = (.error e, s) := rfl

@[simp] theorem exec_call (c : S.Call) (k : S.Resp c → Program S ε α) (s : σ) :
    (call c k).exec meaning s = (k (meaning c s).1).exec meaning (meaning c s).2 := rfl

@[simp] theorem exec_ofExcept (x : Except ε α) (s : σ) :
    (ofExcept x : Program S ε α).exec meaning s = (x, s) := by
  cases x <;> rfl

theorem exec_bind (p : Program S ε α) (f : α → Program S ε β) (s : σ) :
    (p >>= f).exec meaning s = match p.exec meaning s with
      | (.ok a, t) => (f a).exec meaning t
      | (.error e, t) => (.error e, t) := by
  induction p generalizing s with
  | ret a => rfl
  | raise e => rfl
  | call c k ih => exact ih _ _

theorem exec_bind_ok {p : Program S ε α} {f : α → Program S ε β} {s t : σ} {a : α}
    (h : p.exec meaning s = (.ok a, t)) : (p >>= f).exec meaning s = (f a).exec meaning t := by
  rw [exec_bind, h]

theorem exec_handle (p : Program S ε α) (h : ε → Program S ε α) (s : σ) :
    (p.handle h).exec meaning s = match p.exec meaning s with
      | (.ok a, t) => (.ok a, t)
      | (.error e, t) => (h e).exec meaning t := by
  induction p generalizing s with
  | ret a => rfl
  | raise e => rfl
  | call c k ih => exact ih _ _

end Exec

/-! ## Every call of a program -/

/-- Every call the program can issue, whatever the responses, satisfies `ok`. -/
def All (ok : S.Call → Prop) : Program S ε α → Prop
  | ret _ => True
  | raise _ => True
  | call c k => ok c ∧ ∀ r, (k r).All ok

variable {ok : S.Call → Prop}

theorem All.bind {p : Program S ε α} {f : α → Program S ε β} (hp : p.All ok)
    (hf : ∀ a, (f a).All ok) : (p >>= f).All ok := by
  induction p with
  | ret a => exact hf a
  | raise e => trivial
  | call c k ih => exact ⟨hp.1, fun r => ih r (hp.2 r)⟩

theorem All.perform {c : S.Call} (h : ok c) : (perform c : Program S ε _).All ok :=
  ⟨h, fun _ => trivial⟩

theorem All.ofExcept (x : Except ε α) : (ofExcept x : Program S ε α).All ok := by
  cases x <;> trivial

end Program

/-! ## Pools -/

/-- The possible effects of a call issued by thread `i`. -/
abbrev Semantics (S : Signature) (σ ι : Type) := ι → (c : S.Call) → σ → S.Resp c → σ → Prop

/-- A shared state and what is left to run of every thread. -/
structure Pool (S : Signature) (σ ι ε α : Type) where
  state : σ
  threads : ι → Program S ε α

namespace Pool

variable {S : Signature} {σ ι ε α : Type} [DecidableEq ι] {sem : Semantics S σ ι}

/-- Thread `i` makes its next call. -/
inductive Step (sem : Semantics S σ ι) (i : ι) : Pool S σ ι ε α → Pool S σ ι ε α → Prop where
  | call {s s' : σ} {ts : ι → Program S ε α} {c : S.Call} {k : S.Resp c → Program S ε α}
      {r : S.Resp c} (next : ts i = .call c k) (effect : sem i c s r s') :
      Step sem i ⟨s, ts⟩ ⟨s', Function.update ts i (k r)⟩

/-- Any interleaving of the threads. -/
def Reaches (sem : Semantics S σ ι) : Pool S σ ι ε α → Pool S σ ι ε α → Prop :=
  Relation.ReflTransGen fun p q => ∃ i, Step sem i p q

/-- A fact that every admissible call preserves holds along every interleaving. -/
theorem inv_of_calls {ok : S.Call → Prop} {inv : σ → Prop}
    (step : ∀ i c s r s', ok c → inv s → sem i c s r s' → inv s') {p q : Pool S σ ι ε α}
    (threads : ∀ i, (p.threads i).All ok) (h : inv p.state) (run : Reaches sem p q) :
    inv q.state ∧ ∀ i, (q.threads i).All ok := by
  induction run with
  | refl => exact ⟨h, threads⟩
  | tail _ hstep ih =>
    obtain ⟨i, hstep⟩ := hstep
    obtain ⟨hinv, hall⟩ := ih
    cases hstep with
    | @call s s' ts c k r next effect =>
      have hc : (Program.call c k).All ok := next ▸ hall i
      refine ⟨step i c s r s' hc.1 hinv effect, fun j => ?_⟩
      by_cases hj : j = i
      · subst hj; simpa using hc.2 r
      · simpa [hj] using hall j

end Pool

/-! ## Rely and guarantee -/

/-- `P` survives every step the other threads may take between states that satisfy `inv`. -/
def Stable {σ : Type} (inv : σ → Prop) (rely : σ → σ → Prop) (P : σ → Prop) : Prop :=
  ∀ s s', inv s → inv s' → P s → rely s s' → P s'

theorem Stable.and {σ : Type} {inv : σ → Prop} {rely : σ → σ → Prop} {P Q : σ → Prop}
    (hP : Stable inv rely P) (hQ : Stable inv rely Q) : Stable inv rely fun s => P s ∧ Q s :=
  fun s s' hi hi' h hr => ⟨hP s s' hi hi' h.1 hr, hQ s s' hi hi' h.2 hr⟩

theorem Stable.const {σ : Type} {inv : σ → Prop} {rely : σ → σ → Prop} (p : Prop) :
    Stable inv rely fun _ => p := fun _ _ _ _ h _ => h

/-- A fact about a value, where there is one. -/
def OnOk {σ ε α : Type} (K : α → σ → Prop) : Except ε α → σ → Prop
  | .ok a, s => K a s
  | .error _, _ => True

theorem Stable.onOk {σ ε α : Type} {inv : σ → Prop} {rely : σ → σ → Prop} {K : α → σ → Prop}
    (h : ∀ a, Stable inv rely (K a)) (r : Except ε α) : Stable inv rely (OnOk K r) := by
  cases r with
  | ok a => exact h a
  | error e => exact .const True

namespace Program

variable {S : Signature} {ε α β σ : Type} {sem : (c : S.Call) → σ → S.Resp c → σ → Prop}
  {inv : σ → Prop} {rely guar : σ → σ → Prop}

/-- From knowledge `P` the program keeps the invariant and its guarantee at every call, and ends with
`Q`. After each call it goes on with some stable knowledge. -/
def Safe (sem : (c : S.Call) → σ → S.Resp c → σ → Prop) (inv : σ → Prop) (rely guar : σ → σ → Prop)
    (Q : Except ε α → σ → Prop) : Program S ε α → (σ → Prop) → Prop
  | ret a, P => ∀ s, inv s → P s → Q (.ok a) s
  | raise e, P => ∀ s, inv s → P s → Q (.error e) s
  | call c k, P => ∀ s r s', inv s → P s → sem c s r s' →
      inv s' ∧ guar s s' ∧ ∃ P', Stable inv rely P' ∧ P' s' ∧ Safe sem inv rely guar Q (k r) P'

theorem safe_ret {Q : Except ε α → σ → Prop} {P : σ → Prop} {a : α} :
    (ret a : Program S ε α).Safe sem inv rely guar Q P ↔ ∀ s, inv s → P s → Q (.ok a) s := Iff.rfl

theorem safe_raise {Q : Except ε α → σ → Prop} {P : σ → Prop} {e : ε} :
    (raise e : Program S ε α).Safe sem inv rely guar Q P ↔ ∀ s, inv s → P s → Q (.error e) s :=
  Iff.rfl

theorem safe_call {Q : Except ε α → σ → Prop} {P : σ → Prop} {c : S.Call}
    {k : S.Resp c → Program S ε α} : (call c k).Safe sem inv rely guar Q P ↔
      ∀ s r s', inv s → P s → sem c s r s' →
        inv s' ∧ guar s s' ∧ ∃ P', Stable inv rely P' ∧ P' s' ∧ (k r).Safe sem inv rely guar Q P' :=
  Iff.rfl

theorem Safe.pre {Q : Except ε α → σ → Prop} {p : Program S ε α} {P P' : σ → Prop}
    (h : p.Safe sem inv rely guar Q P) (hP : ∀ s, inv s → P' s → P s) :
    p.Safe sem inv rely guar Q P' := by
  cases p with
  | ret a => exact fun s hi hp => h s hi (hP s hi hp)
  | raise e => exact fun s hi hp => h s hi (hP s hi hp)
  | call c k => exact fun s r s' hi hp => h s r s' hi (hP s hi hp)

/-- What the knowledge implies of no state in particular may be assumed. -/
theorem Safe.know {Q : Except ε α → σ → Prop} {p : Program S ε α} {P : σ → Prop} {fact : Prop}
    (hP : ∀ s, inv s → P s → fact) (h : fact → p.Safe sem inv rely guar Q P) :
    p.Safe sem inv rely guar Q P := by
  cases p with
  | ret a => exact fun s hi hp => h (hP s hi hp) s hi hp
  | raise e => exact fun s hi hp => h (hP s hi hp) s hi hp
  | call c k => exact fun s r s' hi hp => h (hP s hi hp) s r s' hi hp

theorem Safe.post {Q Q' : Except ε α → σ → Prop} {p : Program S ε α} {P : σ → Prop}
    (h : p.Safe sem inv rely guar Q P) (hQ : ∀ o s, inv s → Q o s → Q' o s) :
    p.Safe sem inv rely guar Q' P := by
  induction p generalizing P with
  | ret a => exact fun s hi hp => hQ _ s hi (h s hi hp)
  | raise e => exact fun s hi hp => hQ _ s hi (h s hi hp)
  | call c k ih =>
    intro s r s' hi hp hs
    obtain ⟨hi', hg, P', hst, hp', hsafe⟩ := h s r s' hi hp hs
    exact ⟨hi', hg, P', hst, hp', ih r hsafe⟩

/-- Sequential composition: what the first half ends with is what the second starts from. -/
theorem Safe.bind {M : Except ε α → σ → Prop} {Q : Except ε β → σ → Prop} {p : Program S ε α}
    {f : α → Program S ε β} {P : σ → Prop} (hp : p.Safe sem inv rely guar M P)
    (hf : ∀ a, (f a).Safe sem inv rely guar Q (M (.ok a)))
    (herr : ∀ e s, inv s → M (.error e) s → Q (.error e) s) :
    (p >>= f).Safe sem inv rely guar Q P := by
  induction p generalizing P with
  | ret a => exact (hf a).pre hp
  | raise e => exact fun s hi h => herr e s hi (hp s hi h)
  | call c k ih =>
    intro s r s' hi h hs
    obtain ⟨hi', hg, P', hst, hp', hsafe⟩ := hp s r s' hi h hs
    exact ⟨hi', hg, P', hst, hp', ih r hsafe⟩

theorem Safe.handle {M Q : Except ε α → σ → Prop} {p : Program S ε α} {h : ε → Program S ε α}
    {P : σ → Prop} (hp : p.Safe sem inv rely guar M P)
    (hok : ∀ a s, inv s → M (.ok a) s → Q (.ok a) s)
    (hh : ∀ e, (h e).Safe sem inv rely guar Q (M (.error e))) :
    (p.handle h).Safe sem inv rely guar Q P := by
  induction p generalizing P with
  | ret a => exact fun s hi hP => hok a s hi (hp s hi hP)
  | raise e => exact (hh e).pre hp
  | call c k ih =>
    intro s r s' hi hP hs
    obtain ⟨hi', hg, P', hst, hp', hsafe⟩ := hp s r s' hi hP hs
    exact ⟨hi', hg, P', hst, hp', ih r hsafe⟩

/-- A clean-up runs from what the body ended with, whichever way it ended. -/
theorem Safe.ensure {M Q : Except ε α → σ → Prop} {p : Program S ε α} {cleanup : Program S ε Unit}
    {P : σ → Prop} (hp : p.Safe sem inv rely guar M P)
    (hret : ∀ a, (cleanup >>= fun _ => ret a).Safe sem inv rely guar Q (M (.ok a)))
    (hraise : ∀ e, (cleanup >>= fun _ => raise e).Safe sem inv rely guar Q (M (.error e))) :
    (p.ensure cleanup).Safe sem inv rely guar Q P := by
  induction p generalizing P with
  | ret a => exact (hret a).pre hp
  | raise e => exact (hraise e).pre hp
  | call c k ih =>
    intro s r s' hi hP hs
    obtain ⟨hi', hg, P', hst, hp', hsafe⟩ := hp s r s' hi hP hs
    exact ⟨hi', hg, P', hst, hp', ih r hsafe⟩

/-- A check in front of a program. -/
theorem Safe.check {Q : Except ε β → σ → Prop} {P : σ → Prop} {x : Except ε α}
    {f : α → Program S ε β} (herr : ∀ e s, x = .error e → inv s → P s → Q (.error e) s)
    (next : ∀ a, x = .ok a → (f a).Safe sem inv rely guar Q P) :
    (ofExcept x >>= f).Safe sem inv rely guar Q P := by
  cases x with
  | error e => exact fun s hi hp => herr e s rfl hi hp
  | ok a => exact next a rfl

/-- One call: what its response tells must be stable to be used. -/
theorem Safe.call {Q : Except ε α → σ → Prop} {P : σ → Prop} {c : S.Call}
    {k : S.Resp c → Program S ε α} {M : S.Resp c → σ → Prop} (stable : ∀ r, Stable inv rely (M r))
    (step : ∀ s r s', inv s → P s → sem c s r s' → inv s' ∧ guar s s' ∧ M r s')
    (next : ∀ r, (k r).Safe sem inv rely guar Q (M r)) :
    (call c k).Safe sem inv rely guar Q P := by
  intro s r s' hi hp hs
  obtain ⟨hi', hg, hm⟩ := step s r s' hi hp hs
  exact ⟨hi', hg, M r, stable r, hm, next r⟩

/-- A response is returned or raised. -/
theorem Safe.ofExcept {K : α → σ → Prop} (r : Except ε α) :
    (ofExcept r : Program S ε α).Safe sem inv rely guar (OnOk K) (OnOk K r) := by
  cases r with
  | ok a => exact fun _ _ h => h
  | error e => exact fun _ _ _ => trivial

/-- Sequential composition, where nothing is promised of a failure. -/
theorem Safe.then {M : β → σ → Prop} {K : α → σ → Prop} {p : Program S ε α} {f : α → Program S ε β}
    {P : σ → Prop} (hp : p.Safe sem inv rely guar (OnOk K) P)
    (hf : ∀ a, (f a).Safe sem inv rely guar (OnOk M) (K a)) :
    (p >>= f).Safe sem inv rely guar (OnOk M) P :=
  hp.bind hf fun _ _ _ _ => trivial

/-- A program all of whose calls keep invariant and guarantee needs no knowledge. -/
theorem Safe.of_all {ok : S.Call → Prop}
    (step : ∀ c s r s', ok c → inv s → sem c s r s' → inv s' ∧ guar s s') {p : Program S ε α}
    (h : p.All ok) (P : σ → Prop) : p.Safe sem inv rely guar (fun _ _ => True) P := by
  induction p generalizing P with
  | ret a => exact fun _ _ _ => trivial
  | raise e => exact fun _ _ _ => trivial
  | call c k ih =>
    intro s r s' hi _ hs
    obtain ⟨hi', hg⟩ := step c s r s' h.1 hi hs
    exact ⟨hi', hg, fun _ => True, .const True, trivial, ih r (h.2 r) _⟩

-- a goal about `Safe` is opened by the lemmas above, never by running the program
attribute [irreducible] Safe

end Program

namespace Pool

variable {S : Signature} {σ ι ε α : Type} {sem : Semantics S σ ι}
  {inv : σ → Prop} {rely guar : ι → σ → σ → Prop} {post : ι → Except ε α → σ → Prop}

/-- Every thread is safe from knowledge that holds now and is stable. -/
def Safe (sem : Semantics S σ ι) (inv : σ → Prop) (rely guar : ι → σ → σ → Prop)
    (post : ι → Except ε α → σ → Prop) (p : Pool S σ ι ε α) : Prop :=
  inv p.state ∧ ∀ i, ∃ P, Stable inv (rely i) P ∧ P p.state ∧
    (p.threads i).Safe (sem i) inv (rely i) (guar i) (post i) P

/-- The rely/guarantee rule: safety of every thread is kept by every interleaving. -/
theorem sound [DecidableEq ι] (compat : ∀ i j, i ≠ j → ∀ s s', guar i s s' → rely j s s')
    {p q : Pool S σ ι ε α} (safe : Safe sem inv rely guar post p) (run : Reaches sem p q) :
    Safe sem inv rely guar post q := by
  induction run with
  | refl => exact safe
  | tail _ hstep ih =>
    obtain ⟨i, hstep⟩ := hstep
    obtain ⟨hinv, hthreads⟩ := ih
    cases hstep with
    | @call s s' ts c k r next effect =>
      obtain ⟨P, -, hP, hsafe⟩ := hthreads i
      simp only [next] at hsafe
      obtain ⟨hinv', hguar, P', hstable', hP', hsafe'⟩ :=
        Program.safe_call.mp hsafe s r s' hinv hP effect
      refine ⟨hinv', fun j => ?_⟩
      by_cases hj : j = i
      · subst hj
        exact ⟨P', hstable', hP', by simpa using hsafe'⟩
      · obtain ⟨Pj, hst, hPj, hsafej⟩ := hthreads j
        refine ⟨Pj, hst, hst s s' hinv hinv' hPj (compat i j (Ne.symm hj) s s' hguar), ?_⟩
        simpa [hj] using hsafej

/-- What every thread guarantees of one step, and is transitive, holds from any point of a run to any
later one. -/
theorem guarantee_of_run [DecidableEq ι]
    (compat : ∀ i j, i ≠ j → ∀ s s', guar i s s' → rely j s s') {T : σ → σ → Prop}
    (refl : ∀ s, T s s) (trans : ∀ s t u, T s t → T t u → T s u)
    (steps : ∀ i s s', guar i s s' → T s s') {p q : Pool S σ ι ε α}
    (safe : Safe sem inv rely guar post p) (run : Reaches sem p q) : T p.state q.state := by
  induction run with
  | refl => exact refl _
  | @tail b c hrun hstep ih =>
    obtain ⟨i, hstep⟩ := hstep
    obtain ⟨hinv, hthreads⟩ := sound compat safe hrun
    cases hstep with
    | @call s s' ts c k r next effect =>
      obtain ⟨P, -, hP, hsafe⟩ := hthreads i
      simp only [next] at hsafe
      exact trans _ _ _ ih (steps i s s' (Program.safe_call.mp hsafe s r s' hinv hP effect).2.1)

/-- A thread that returned has its postcondition in the current state. -/
theorem Safe.returned {p : Pool S σ ι ε α} (safe : Safe sem inv rely guar post p) {i : ι} {a : α}
    (h : p.threads i = .ret a) : post i (.ok a) p.state := by
  obtain ⟨P, -, hP, hsafe⟩ := safe.2 i
  rw [h] at hsafe
  exact Program.safe_ret.mp hsafe p.state safe.1 hP

end Pool

end Lib
