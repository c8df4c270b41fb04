import Mathlib.Init

/-!
# Errors

The exceptions the program raises or handles by name. `AssistantError` carries a code; the others are
the host's. A `ValidationError` is a `ValueError`, and a `ReminderIdempotencyConflict` is an
`AssistantError` with code `CONFLICT`, which is what the `except` clauses rely on.
-/
namespace PersonalAssistant

inductive ErrorCode where
  | validationFailed
  | authenticationRequired
  | permissionDenied
  | tenantRequired
  | tokenBudgetExceeded
  | guardrailBlocked
  | piiDetected
  | promptInjectionDetected
  | notFound
  | conflict
  | internalError
  | payloadTooLarge
deriving DecidableEq, Repr

inductive PyError where
  | assistant (code : ErrorCode) (message : String) (tenantId : Option String)
  | reminderIdempotencyConflict (tenantId idempotencyKey : String)
  | valueError (message : String)
  | validationError (message : String)
  | typeError (message : String)
  | overflowError (message : String)
  | keyError (key : String)
  | runtimeError (message : String)
  | integrityError (constraint : String)
  /-- An exception of a port, an adapter or the interpreter that no clause names. -/
  | external (name : String)
deriving DecidableEq, Repr

namespace PyError

/-- `error.code` of an `AssistantError`. -/
def code? : PyError → Option ErrorCode
  | assistant code _ _ => some code
  | reminderIdempotencyConflict _ _ => some .conflict
  | _ => none

/-- Caught by `except ValueError`. -/
def isValueError : PyError → Bool
  | valueError _ => true
  | validationError _ => true
  | _ => false

end PyError

/-- What two implementations of one method answer: related values, or an `AssistantError` with the same
code, or, where the call is refused by both, another exception. -/
inductive SameAnswer {α : Type} (R : α → α → Prop) (refused : Prop) :
    Except PyError α → Except PyError α → Prop where
  | returned {a b : α} : R a b → SameAnswer R refused (.ok a) (.ok b)
  | raised {e e' : PyError} (code : ErrorCode) : e.code? = some code → e'.code? = some code →
      SameAnswer R refused (.error e) (.error e')
  | refused {e e' : PyError} : refused → e.code? = none → e'.code? = none →
      SameAnswer R refused (.error e) (.error e')

/-- An exception that is no `AssistantError` is no answer to a call that is not refused. -/
theorem SameAnswer.code {α : Type} {R : α → α → Prop} {x : Except PyError α} {e : PyError}
    (h : SameAnswer R False x (.error e)) : e.code? ≠ none := by
  cases h with
  | raised code _ h => simp [h]
  | refused h => exact h.elim

/-- The values returned are equal where the answers are compared by equality. -/
theorem SameAnswer.toOption_eq {α : Type} {refused : Prop} {x y : Except PyError α}
    (h : SameAnswer Eq refused x y) : x.toOption = y.toOption := by
  cases h with
  | returned h => rw [h]
  | raised => rfl
  | refused => rfl

end PersonalAssistant
