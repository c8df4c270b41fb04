import PersonalAssistant.Lib.Effect

/-!
# Histories of calls

A store is used by calls made one after another, each of which answers or raises. `after` is the state
a history leaves and `history` pairs every call with its answer. Facts about whole histories come from
facts about one call: an invariant, a transitive relation between the states around a call, and answers
that can be given at most once. `Along` states a property of every call at the state it finds.
-/
namespace Lib

variable {σ ε α β : Type} {exec : α → Op σ ε β}

/-- The state after a sequence of calls. -/
def after (exec : α → Op σ ε β) (s : σ) : List α → σ
  | [] => s
  | c :: cs => after exec (exec c s).2 cs

/-- The calls of a sequence with their answers. -/
def history (exec : α → Op σ ε β) (s : σ) : List α → List (α × Except ε β)
  | [] => []
  | c :: cs => (c, (exec c s).1) :: history exec (exec c s).2 cs

@[simp] theorem after_nil (s : σ) : after exec s [] = s := rfl

@[simp] theorem after_cons (s : σ) (c : α) (cs : List α) :
    after exec s (c :: cs) = after exec (exec c s).2 cs := rfl

@[simp] theorem after_append (s : σ) (cs ds : List α) :
    after exec s (cs ++ ds) = after exec (after exec s cs) ds := by
  induction cs generalizing s with
  | nil => rfl
  | cons c cs ih => exact ih (exec c s).2

/-- What every admissible call keeps, a history of them keeps. -/
theorem after_inv (inv : σ → Prop) (ok : α → Prop)
    (step : ∀ c s, ok c → inv s → inv (exec c s).2) {s : σ} {cs : List α} (hs : inv s)
    (hcs : ∀ c ∈ cs, ok c) : inv (after exec s cs) := by
  induction cs generalizing s with
  | nil => exact hs
  | cons c cs ih =>
    exact ih (step c s (hcs c (by simp)) hs) fun d hd => hcs d (by simp [hd])

/-- Under an invariant, what relates the states around one call relates those around a history. -/
theorem after_rel {inv : σ → Prop} {ok : α → Prop} {R : σ → σ → Prop}
    (refl : ∀ s, R s s) (trans : ∀ s t u, R s t → R t u → R s u)
    (step : ∀ c s, ok c → inv s → inv (exec c s).2 ∧ R s (exec c s).2) {s : σ} {cs : List α}
    (hs : inv s) (hcs : ∀ c ∈ cs, ok c) : R s (after exec s cs) := by
  induction cs generalizing s with
  | nil => exact refl s
  | cons c cs ih =>
    obtain ⟨hinv, hrel⟩ := step c s (hcs c (by simp)) hs
    exact trans _ _ _ hrel (ih hinv fun d hd => hcs d (by simp [hd]))

/-- An answer that makes a lasting fact true and is never given once the fact holds is given at most
once. -/
theorem countP_history_le_one {p : α × Except ε β → Bool} (done : σ → Prop)
    (marks : ∀ c s, p (c, (exec c s).1) = true → done (exec c s).2)
    (lasts : ∀ c s, done s → done (exec c s).2)
    (once : ∀ c s, done s → p (c, (exec c s).1) = false) (s : σ) (cs : List α) :
    (history exec s cs).countP p ≤ 1 := by
  have hnever : ∀ cs s, done s → (history exec s cs).countP p = 0 := by
    intro cs
    induction cs with
    | nil => intro s _; rfl
    | cons c cs ih =>
      intro s hs
      simp [history, once c s hs, ih _ (lasts c s hs)]
  induction cs generalizing s with
  | nil => simp [history]
  | cons c cs ih =>
    rw [history, List.countP_cons]
    cases hp : p (c, (exec c s).1) with
    | true => simp [hnever cs _ (marks c s hp)]
    | false => simpa using ih (exec c s).2

/-- `P` holds of every call of a sequence, at the state the call is made in. -/
def Along (exec : α → Op σ ε β) (P : α → σ → Prop) (s : σ) : List α → Prop
  | [] => True
  | c :: cs => P c s ∧ Along exec P (exec c s).2 cs

/-- Where `P` and `Q` agree as long as an invariant holds, and a call with `P` keeps the invariant, they
agree along every history. -/
theorem along_iff (inv : σ → Prop) {P Q : α → σ → Prop} (same : ∀ c s, inv s → (P c s ↔ Q c s))
    (keeps : ∀ c s, inv s → P c s → inv (exec c s).2) {s : σ} (hs : inv s) (cs : List α) :
    Along exec P s cs ↔ Along exec Q s cs := by
  induction cs generalizing s with
  | nil => exact Iff.rfl
  | cons c cs ih =>
    constructor
    · intro ⟨hc, hcs⟩
      exact ⟨(same c s hs).mp hc, (ih (keeps c s hs hc)).mp hcs⟩
    · intro ⟨hc, hcs⟩
      have hp := (same c s hs).mpr hc
      exact ⟨hp, (ih (keeps c s hs hp)).mpr hcs⟩

end Lib
