import PersonalAssistant.Lib.Program

/-!
# Programs over several ports

A program written against one signature is used inside a program that has more calls at hand. Whatever
holds of all its calls, or of what it returns, holds of the embedded program, and what is safe for the
calls of the one signature is safe for those of both.
-/
namespace Lib

/-- The calls of two signatures. -/
abbrev Signature.sum (S T : Signature) : Signature := ⟨S.Call ⊕ T.Call, Sum.elim S.Resp T.Resp⟩

namespace Program

variable {S T : Signature} {ε α β σ : Type} {φ : α → Prop} {ψ : β → Prop}

/-- Use a program of the first signature. -/
def left (T : Signature) : Program S ε α → Program (S.sum T) ε α
  | ret a => ret a
  | raise e => raise e
  | call c k => call (.inl c) fun r => (k r).left T

theorem All.left {ok : (S.sum T).Call → Prop} {p : Program S ε α} (h : p.All fun c => ok (.inl c)) :
    (p.left T).All ok := by
  induction p with
  | ret a => trivial
  | raise e => trivial
  | call c k ih => exact ⟨h.1, fun r => ih r (h.2 r)⟩

/-- The calls behind a check. -/
theorem All.check {ok : S.Call → Prop} {x : Except ε α} {f : α → Program S ε β}
    (next : ∀ a, x = .ok a → (f a).All ok) : (Program.ofExcept x >>= f).All ok := by
  cases x with
  | error e => trivial
  | ok a => exact next a rfl

theorem All.mono {ok ok' : S.Call → Prop} {p : Program S ε α} (h : p.All ok)
    (weaken : ∀ c, ok c → ok' c) : p.All ok' := by
  induction p with
  | ret a => trivial
  | raise e => trivial
  | call c k ih => exact ⟨weaken c h.1, fun r => ih r (h.2 r)⟩

theorem All.trivial (p : Program S ε α) : p.All fun _ => True := by
  induction p with
  | ret a => exact True.intro
  | raise e => exact True.intro
  | call c k ih => exact ⟨True.intro, ih⟩

theorem All.and {ok ok' : S.Call → Prop} {p : Program S ε α} (h : p.All ok) (h' : p.All ok') :
    p.All fun c => ok c ∧ ok' c := by
  induction p with
  | ret a => trivial
  | raise e => trivial
  | call c k ih => exact ⟨⟨h.1, h'.1⟩, fun r => ih r (h.2 r) (h'.2 r)⟩

/-! ## What a program returns -/

/-- Whatever the responses, a value that is returned satisfies `φ`. -/
def Ends (φ : α → Prop) : Program S ε α → Prop
  | ret a => φ a
  | raise _ => True
  | call _ k => ∀ r, (k r).Ends φ

namespace Ends

theorem bind {p : Program S ε α} {f : α → Program S ε β} (hp : p.Ends φ)
    (hf : ∀ a, φ a → (f a).Ends ψ) : (p >>= f).Ends ψ := by
  induction p with
  | ret a => exact hf a hp
  | raise e => trivial
  | call c k ih => exact fun r => ih r (hp r)

/-- Nothing needs to be known of the first value. -/
theorem after {p : Program S ε α} {f : α → Program S ε β} (hf : ∀ a, (f a).Ends ψ) :
    (p >>= f).Ends ψ := by
  induction p with
  | ret a => exact hf a
  | raise e => trivial
  | call c k ih => exact fun r => ih r

theorem ofExcept {x : Except ε α} (h : ∀ a, x = .ok a → φ a) :
    (Program.ofExcept x : Program S ε α).Ends φ := by
  cases x with
  | error e => trivial
  | ok a => exact h a rfl

theorem mono {φ' : α → Prop} {p : Program S ε α} (h : p.Ends φ) (weaken : ∀ a, φ a → φ' a) :
    p.Ends φ' := by
  induction p with
  | ret a => exact weaken a h
  | raise e => trivial
  | call c k ih => exact fun r => ih r (h r)

theorem trivial (p : Program S ε α) : p.Ends fun _ => True := by
  induction p with
  | ret a => exact True.intro
  | raise e => exact True.intro
  | call c k ih => exact fun r => ih r

end Ends

/-! ## Rely and guarantee -/

variable {inv : σ → Prop} {rely guar : σ → σ → Prop} {P : σ → Prop}

/-- A program that is safe for its own calls is safe among more calls. -/
theorem Safe.left {sem : (c : (S.sum T).Call) → σ → (S.sum T).Resp c → σ → Prop}
    {Q : Except ε α → σ → Prop} {p : Program S ε α}
    (h : p.Safe (fun c s r s' => sem (.inl c) s r s') inv rely guar Q P) :
    (p.left T).Safe sem inv rely guar Q P := by
  induction p generalizing P with
  | ret a => exact safe_ret.mpr (safe_ret.mp h)
  | raise e => exact safe_raise.mpr (safe_raise.mp h)
  | call c k ih =>
    refine safe_call.mpr fun s r s' hi hP hs => ?_
    obtain ⟨hi', hg, P', hstable, hP', hnext⟩ := safe_call.mp h s r s' hi hP hs
    exact ⟨hi', hg, P', hstable, hP', ih r hnext⟩

/-- A program whose calls keep what is known, where the calls are known to be allowed. -/
theorem Safe.of_calls {sem : (c : S.Call) → σ → S.Resp c → σ → Prop} {ok : S.Call → Prop}
    (stable : Stable inv rely P)
    (step : ∀ c s r s', ok c → inv s → P s → sem c s r s' → inv s' ∧ guar s s' ∧ P s')
    {p : Program S ε α} (h : p.All ok) (ends : p.Ends φ) :
    p.Safe sem inv rely guar (OnOk fun a s => φ a ∧ P s) P := by
  induction p with
  | ret a => exact safe_ret.mpr fun s _ hP => ⟨ends, hP⟩
  | raise e => exact safe_raise.mpr fun _ _ _ => trivial
  | call c k ih =>
    refine safe_call.mpr fun s r s' hi hP hs => ?_
    obtain ⟨hi', hg, hP'⟩ := step c s r s' h.1 hi hP hs
    exact ⟨hi', hg, P, stable, hP', ih r (h.2 r) (ends r)⟩

/-- What is returned whatever the responses is returned by a safe run. -/
theorem Safe.ends {sem : (c : S.Call) → σ → S.Resp c → σ → Prop} {K : α → σ → Prop} {p : Program S ε α}
    (h : p.Safe sem inv rely guar (OnOk K) P) (ends : p.Ends φ) :
    p.Safe sem inv rely guar (OnOk fun a s => φ a ∧ K a s) P := by
  induction p generalizing P with
  | ret a => exact safe_ret.mpr fun s hi hP => ⟨ends, safe_ret.mp h s hi hP⟩
  | raise e => exact safe_raise.mpr fun _ _ _ => trivial
  | call c k ih =>
    refine safe_call.mpr fun s r s' hi hP hs => ?_
    obtain ⟨hi', hg, P', hstable, hP', hnext⟩ := safe_call.mp h s r s' hi hP hs
    exact ⟨hi', hg, P', hstable, hP', ih r hnext (ends r)⟩

end Program

/-! ## Calls of a thread -/

namespace Pool

variable {S : Signature} {σ ι ε α : Type} [DecidableEq ι] {sem : Semantics S σ ι} {p q : Pool S σ ι ε α}

theorem Step.all {ok : ι → S.Call → Prop} {i : ι} (h : ∀ j, (p.threads j).All (ok j))
    (step : Step sem i p q) :
    (∀ j, (q.threads j).All (ok j)) ∧ ∃ c r, ok i c ∧ sem i c p.state r q.state := by
  cases step with
  | @call s s' ts c k r next effect =>
    have hc : (Program.call c k).All (ok i) := next ▸ h i
    refine ⟨fun j => ?_, c, r, hc.1, effect⟩
    by_cases hj : j = i
    · subst hj; simpa using hc.2 r
    · simpa [hj] using h j

theorem Reaches.mono {sem' : Semantics S σ ι} (sub : ∀ i c s r s', sem i c s r s' → sem' i c s r s')
    (run : Reaches sem p q) : Reaches sem' p q := by
  induction run with
  | refl => exact .refl
  | tail _ hstep ih =>
    obtain ⟨i, hstep⟩ := hstep
    cases hstep with
    | call next effect => exact ih.tail ⟨i, .call next (sub _ _ _ _ _ effect)⟩

/-- Each thread keeps to its own calls. -/
theorem all_of_reaches {ok : ι → S.Call → Prop} (h : ∀ i, (p.threads i).All (ok i))
    (run : Reaches sem p q) : ∀ i, (q.threads i).All (ok i) := by
  induction run with
  | refl => exact h
  | tail _ hstep ih =>
    obtain ⟨i, hstep⟩ := hstep
    exact (hstep.all ih).1

/-- A thread that runs alone, each call doing one of the things it may do where `inv` holds. -/
theorem reaches_of_exec_from {meaning : (c : S.Call) → σ → S.Resp c × σ} {inv : σ → Prop} {i : ι}
    (sound : ∀ c s, inv s → sem i c s (meaning c s).1 (meaning c s).2 ∧ inv (meaning c s).2) {s : σ}
    (start : inv s) (ts : ι → Program S ε α) :
    Reaches sem ⟨s, ts⟩ ⟨((ts i).exec meaning s).2,
      Function.update ts i (.ofExcept ((ts i).exec meaning s).1)⟩ ∧ inv ((ts i).exec meaning s).2 := by
  suffices h : ∀ (program : Program S ε α) s ts, inv s → ts i = program → Reaches sem ⟨s, ts⟩
      ⟨(program.exec meaning s).2, Function.update ts i (.ofExcept (program.exec meaning s).1)⟩ ∧
        inv (program.exec meaning s).2 from
    h _ s ts start rfl
  intro program
  induction program with
  | ret a =>
    intro s ts hinv hi
    have hsame : Function.update ts i (.ret a) = ts := Function.update_eq_self_iff.mpr hi.symm
    simp only [Program.exec_ret, Program.ofExcept, hsame]
    exact ⟨.refl, hinv⟩
  | raise e =>
    intro s ts hinv hi
    have hsame : Function.update ts i (.raise e) = ts := Function.update_eq_self_iff.mpr hi.symm
    simp only [Program.exec_raise, Program.ofExcept, hsame]
    exact ⟨.refl, hinv⟩
  | call c k ih =>
    intro s ts hinv hi
    obtain ⟨heffect, hinv'⟩ := sound c s hinv
    obtain ⟨hrest, hend⟩ := ih (meaning c s).1 (meaning c s).2
      (Function.update ts i (k (meaning c s).1)) hinv' (Function.update_self ..)
    rw [Function.update_idem] at hrest
    exact ⟨.head ⟨i, .call hi heffect⟩ hrest, hend⟩

theorem reaches_of_exec {meaning : (c : S.Call) → σ → S.Resp c × σ} {i : ι}
    (sound : ∀ c s, sem i c s (meaning c s).1 (meaning c s).2) (s : σ) (ts : ι → Program S ε α) :
    Reaches sem ⟨s, ts⟩ ⟨((ts i).exec meaning s).2,
      Function.update ts i (.ofExcept ((ts i).exec meaning s).1)⟩ :=
  have hsound : ∀ c s, True → sem i c s (meaning c s).1 (meaning c s).2 ∧ True :=
    fun c s _ => ⟨sound c s, trivial⟩
  (reaches_of_exec_from hsound trivial ts).1

omit [DecidableEq ι] in
/-- A call of a safe thread meets its guarantee. -/
theorem Safe.guarantee {inv : σ → Prop} {rely guar : ι → σ → σ → Prop} {post : ι → Except ε α → σ → Prop}
    {i : ι} {c : S.Call} {k : S.Resp c → Program S ε α} {r : S.Resp c} {s' : σ}
    (safe : Safe sem inv rely guar post p) (next : p.threads i = .call c k) (effect : sem i c p.state r s') :
    guar i p.state s' := by
  obtain ⟨P, -, hP, hthread⟩ := safe.2 i
  rw [next] at hthread
  exact (Program.safe_call.mp hthread p.state r s' safe.1 hP effect).2.1

/-- A run of a safe pool is one whose calls keep the invariant and the guarantee, so a second analysis may
assume both of every call. -/
theorem Safe.restrict {sem' : Semantics S σ ι} {inv : σ → Prop} {rely guar : ι → σ → σ → Prop}
    {post : ι → Except ε α → σ → Prop} (sub : ∀ i c s r s', sem' i c s r s' → sem i c s r s')
    (compat : ∀ i j, i ≠ j → ∀ s s', guar i s s' → rely j s s') (safe : Safe sem inv rely guar post p)
    (run : Reaches sem' p q) :
    Reaches (fun i c s r s' => sem' i c s r s' ∧ inv s ∧ inv s' ∧ guar i s s') p q ∧
      Safe sem inv rely guar post q := by
  induction run with
  | refl => exact ⟨.refl, safe⟩
  | tail _ hstep ih =>
    obtain ⟨hreaches, hsafe⟩ := ih
    obtain ⟨i, hstep⟩ := hstep
    cases hstep with
    | call next effect =>
      have hwide : Step sem i _ _ := .call next (sub _ _ _ _ _ effect)
      have hsafe' := sound compat hsafe (Relation.ReflTransGen.single ⟨i, hwide⟩)
      have hguar := hsafe.guarantee next (sub _ _ _ _ _ effect)
      exact ⟨hreaches.tail ⟨i, .call next ⟨effect, hsafe.1, hsafe'.1, hguar⟩⟩, hsafe'⟩

/-- What the other threads guarantee of one step, and is transitive, holds along a run of a thread that has
ended. -/
theorem Safe.of_ended {inv : σ → Prop} {rely guar : ι → σ → σ → Prop} {post : ι → Except ε α → σ → Prop}
    {i : ι} {T : σ → σ → Prop} (compat : ∀ i j, i ≠ j → ∀ s s', guar i s s' → rely j s s')
    (refl : ∀ s, T s s) (trans : ∀ s t u, T s t → T t u → T s u)
    (others : ∀ j, j ≠ i → ∀ s s', guar j s s' → T s s') (safe : Safe sem inv rely guar post p)
    (ended : ∀ c k, p.threads i ≠ .call c k) (run : Reaches sem p q) :
    T p.state q.state ∧ q.threads i = p.threads i := by
  induction run with
  | refl => exact ⟨refl _, rfl⟩
  | @tail b c hrun hstep ih =>
    obtain ⟨hT, hsame⟩ := ih
    obtain ⟨j, hstep⟩ := hstep
    have hsafe := sound compat safe hrun
    cases hstep with
    | @call s s' ts c k r next effect =>
      have hj : j ≠ i := by
        rintro rfl
        exact ended c k (hsame.symm.trans next)
      refine ⟨trans _ _ _ hT (others j hj s s' (hsafe.guarantee next effect)), ?_⟩
      simpa [Function.update_of_ne (Ne.symm hj)] using hsame

end Pool

end Lib
