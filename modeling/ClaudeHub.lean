import ClaudeHub.TaskMailbox.Sequence
import ClaudeHub.TaskMailbox.Wakeup
import ClaudeHub.ChatInbox.AnswerRecovery
import ClaudeHub.GoalRun.Lifecycle
import ClaudeHub.GoalRun.Steering
import ClaudeHub.BotPool.Authority
import ClaudeHub.Restart.AtMostOnce
import ClaudeHub.TaskExecution.Fencing
import ClaudeHub.ChatInbox.InOrder
import ClaudeHub.ChatInbox.Idempotency
import ClaudeHub.ChatInbox.Persistence
import ClaudeHub.ManagedChat.AtMostOnce
import ClaudeHub.Reports.Binding
import ClaudeHub.Reports.Done
import ClaudeHub.Reports.SealedRound
import ClaudeHub.Reports.Acknowledgements
import ClaudeHub.Subagents.Quiet
import ClaudeHub.TaskGraph.Run
import ClaudeHub.DurableStore.Evidence
import ClaudeHub.Scheduling.Edits
import ClaudeHub.Messaging.RetryTrace
import ClaudeHub.ManagedChat.TurnState
import ClaudeHub.AgentStream.Redaction
import ClaudeHub.TerminalTabs.Limits
import ClaudeHub.TerminalTabs.RetirementRun
import ClaudeHub.AgentStream.TurnEdgeRun
import ClaudeHub.GoalRun.NativeRun
import ClaudeHub.AgentStream.EditResendRun
import ClaudeHub.Scheduling.CronSearch
import ClaudeHub.TaskGraph.LoadOrder
import ClaudeHub.TaskGraph.DependencyStore
import ClaudeHub.GoalProtocol.Signal
import ClaudeHub.GoalProtocol.SanitizerRun
import ClaudeHub.AgentStream.ReadIndexRun
import ClaudeHub.TaskBoard.PaginationRun
import ClaudeHub.AgentStream.SnapshotRun
import ClaudeHub.AgentStream.HistoryRun
import ClaudeHub.Dot.LessonVotes
import ClaudeHub.Messaging.FingerprintIdentity
import ClaudeHub.AgentStream.GuidanceStrip
import ClaudeHub.Timeline.Incremental
import ClaudeHub.Subagents.Saves
import ClaudeHub.AgentStream.MarkdownReferences
import ClaudeHub.AgentStream.FirstTurn
import ClaudeHub.Feedback.SummaryInput
import ClaudeHub.AgentStream.CodexQuestions
import ClaudeHub.TerminalTabs.Order
import ClaudeHub.AgentStream.NewLines
import ClaudeHub.Auth.Proxy
import ClaudeHub.TaskExecution.Activity
import ClaudeHub.TerminalTabs.Update
import ClaudeHub.Timeline.MarkdownBlocks
import ClaudeHub.AgentStream.LiveView
