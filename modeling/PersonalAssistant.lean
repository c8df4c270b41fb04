import PersonalAssistant.Reminders.Effects
import PersonalAssistant.Stores.WorkflowRegistry
import PersonalAssistant.Stores.ApprovalRecords
import PersonalAssistant.Isolation.Histories
import PersonalAssistant.Outbox.Indexes
import PersonalAssistant.Postgres.Approvals
import PersonalAssistant.Postgres.OutboxAgreement
import PersonalAssistant.Postgres.WorkflowAgreement
import PersonalAssistant.Postgres.WorkflowConcurrency
import PersonalAssistant.Postgres.DeliveryRows
import PersonalAssistant.Postgres.SchedulerAgreement
import PersonalAssistant.Postgres.MemoryAgreement
import PersonalAssistant.UnitOfWork
import PersonalAssistant.Migrations.Runs
import PersonalAssistant.Reminders.Clock
import PersonalAssistant.Reminders.WallClock
import PersonalAssistant.Privacy.Boundary
import PersonalAssistant.Privacy.Guardrails
import PersonalAssistant.Tracing.Recorders
import PersonalAssistant.Egress.WhatsAppClient
import PersonalAssistant.Documents.Summaries
import PersonalAssistant.Reminders.Drafts
import PersonalAssistant.Reminders.Notices
import PersonalAssistant.Reminders.ModelAnswers
import PersonalAssistant.Dispatch.RetrySpacing
import PersonalAssistant.Dispatch.Attempts
import PersonalAssistant.Dispatch.Agreement
import PersonalAssistant.Egress.Entries
import PersonalAssistant.Wct.MutationManifest
import PersonalAssistant.Wct.Architecture
import PersonalAssistant.Conversation.Decisions
import PersonalAssistant.Conversation.Created
