import Mathlib.Init

/-!
# Types of trace events
-/
namespace PersonalAssistant

inductive TraceEventType where
  | agentStarted
  | contextSelected
  | llmCalled
  | toolCalled
  | guardrailChecked
  | approvalRequested
  | agentCompleted
  | agentFailed
deriving DecidableEq, Repr

namespace TraceEventType

def value : TraceEventType → String
  | agentStarted => "agent.started"
  | contextSelected => "context.selected"
  | llmCalled => "llm.called"
  | toolCalled => "tool.called"
  | guardrailChecked => "guardrail.checked"
  | approvalRequested => "approval.requested"
  | agentCompleted => "agent.completed"
  | agentFailed => "agent.failed"

theorem value_injective : Function.Injective value := by
  intro a b h
  cases a <;> cases b <;> first | rfl | exact absurd h (by decide)

end TraceEventType

end PersonalAssistant
