import ProRLAgent.Basic
import ProRLAgent.Lib.Machine
import ProRLAgent.Lib.Pool
import ProRLAgent.Lib.Except
import ProRLAgent.Lib.Dict
import ProRLAgent.Tokens.Qwen3
import ProRLAgent.Tokens.Training
import ProRLAgent.Rollout.Padding
import ProRLAgent.Rollout.BatchRows
import ProRLAgent.Rollout.Collect
import ProRLAgent.Rollout.Dapo
import ProRLAgent.Rollout.DapoLedger
import ProRLAgent.Rollout.DapoQueue
import ProRLAgent.Rollout.DapoRound
import ProRLAgent.Process.Server
import ProRLAgent.Process.Semaphores
import ProRLAgent.Process.Results
import ProRLAgent.Jobs.FinalResult
import ProRLAgent.Threaded.Server
import ProRLAgent.Threaded.NoJobLost
import ProRLAgent.Threaded.Cancellation
import ProRLAgent.Threaded.Stopping
import ProRLAgent.Lib.Handles
import ProRLAgent.Threaded.Runtimes
import ProRLAgent.Jobs.Timer
import ProRLAgent.Threaded.Phases
import ProRLAgent.Events.Delivery
import ProRLAgent.Events.Store
import ProRLAgent.Api.Server
import ProRLAgent.Api.Addresses
import ProRLAgent.Lib.Heapq
import ProRLAgent.Api.Control
import ProRLAgent.Api.Futures
import ProRLAgent.Jobs.Registry
import ProRLAgent.Jobs.TwoServers
import ProRLAgent.Jobs.Agreement
import ProRLAgent.Lib.Assoc
import ProRLAgent.Events.Values
import ProRLAgent.Events.Classes
import ProRLAgent.Events.Serialization
import ProRLAgent.Events.Restored
import ProRLAgent.Events.RoundTrip
import ProRLAgent.Events.Secrets
import ProRLAgent.Lib.Replace
import ProRLAgent.Jobs.Registrations
import ProRLAgent.Rollout.Producer
import ProRLAgent.Tokens.Vision
import ProRLAgent.Lib.Slices
import ProRLAgent.Memory.View
import ProRLAgent.Memory.Condenser
import ProRLAgent.Memory.Prompt
import ProRLAgent.Memory.Cache
import ProRLAgent.Memory.Window
import ProRLAgent.Controller.AgentController
import ProRLAgent.Controller.Metrics
import ProRLAgent.Controller.Budget
import ProRLAgent.Lib.Blocks
import ProRLAgent.Rollout.Alignment
import ProRLAgent.Rollout.Fallback
import ProRLAgent.Rollout.Assignment
import ProRLAgent.Jobs.ResultSchema
import ProRLAgent.Api.Balance
import ProRLAgent.Memory.WindowView
import ProRLAgent.Tokens.Template
import ProRLAgent.Tokens.Serializer
import ProRLAgent.Tokens.VisionTraining
import ProRLAgent.FnCall.Prompts
import ProRLAgent.Lib.Search
import ProRLAgent.FnCall.Converter
import ProRLAgent.FnCall.CallText
import ProRLAgent.FnCall.RoundTrip
import ProRLAgent.Lib.Brackets
import ProRLAgent.Controller.History
import ProRLAgent.Memory.Attention
import ProRLAgent.Controller.Stuck
import ProRLAgent.Controller.Scenarios
import ProRLAgent.Controller.Strictness
import ProRLAgent.FnCall.StopWord
import ProRLAgent.FnCall.Parallel
import ProRLAgent.FnCall.Regrouping
import ProRLAgent.Lib.Replay
import ProRLAgent.Memory.Rendering
import ProRLAgent.Memory.Replayed
import ProRLAgent.Lib.Literals
import ProRLAgent.FnCall.Printed
import ProRLAgent.FnCall.ReadBack
import ProRLAgent.Bash.Escaping
import ProRLAgent.Lib.Markers
import ProRLAgent.FnCall.Loaded
import ProRLAgent.Bash.Prompt
import ProRLAgent.Tokens.ToolCalls
import ProRLAgent.Grading.R2EGym
import ProRLAgent.Lib.Lines
import ProRLAgent.CodeAct.Actions
import ProRLAgent.CodeAct.Feedback
import ProRLAgent.Bash.Extraction
import ProRLAgent.Grading.Boxed
import ProRLAgent.Bash.Truncation
import ProRLAgent.Bash.Splitting
import ProRLAgent.Reward.Repetition
import ProRLAgent.Lib.ExactFloat
import ProRLAgent.Reward.LengthPenalty
import ProRLAgent.Lib.Subsets
import ProRLAgent.Reward.PassAtK
import ProRLAgent.FreeText.Dumps
import ProRLAgent.FreeText.Loads
import ProRLAgent.Bash.Incremental
import ProRLAgent.Bash.Session
import ProRLAgent.Bash.Completion
import ProRLAgent.Bash.Refusal
import ProRLAgent.Bash.Methods
import ProRLAgent.Bash.Journal
import ProRLAgent.Trainer.KlControl
import ProRLAgent.Trainer.Balance
