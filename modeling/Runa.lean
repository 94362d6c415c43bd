import Runa.Stream.Occurrence
import Runa.Stream.Splitter
import Runa.Stream.Utf8
import Runa.Core.Reason
import Runa.Core.ReasonLaws
import Runa.Core.Think
import Runa.Engine.StopFilter
import Runa.Engine.Ngram
import Runa.Engine.Sampling
import Runa.Engine.Generate
import Runa.Engine.GenerateRun
import Runa.Engine.GenerateStream
import Runa.Engine.GenerateBudget
import Runa.Engine.Speculation
import Runa.Word.Checked
import Runa.Bytes.LittleEndian
import Runa.Bytes.Lossy
import Runa.Bytes.Scans
import Runa.Bytes.Completions
import Runa.Packing.Greedy
import Runa.Fit.GgmlTypes
import Runa.Fit.Gguf
import Runa.Fit.GgufLaws
import Runa.Fit.Truncation
import Runa.Fit.Remote
import Runa.Fit.Estimate
import Runa.Fit.Descriptors
import Runa.Fit.Accounts
import Runa.Fit.Planner
import Runa.Fit.PlannerLaws
import Runa.Fit.CheckFit
import Runa.Fit.Safety
import Runa.Fit.MoreMemory
import Runa.Fit.MapOrder
import Runa.Fit.Shards
import Runa.Engine.Placements
import Runa.App.AutoPlacement
import Runa.Queue.Recency
import Runa.App.Pool
import Runa.Store.Ordered
import Runa.Json.Value
import Runa.App.Serve
import Runa.App.EventStream
import Runa.Json.Codec
import Runa.App.Replies
import Runa.Stream.Lines
import Runa.Cloud.Anthropic
import Runa.Cloud.Streams
import Runa.App.ClientReads
import Runa.Memory.Registry
import Runa.Memory.LockTable
import Runa.Fit.Cache
import Runa.Fit.CacheNotes
import Runa.Fit.CacheRuns
import Runa.Fit.CacheStops
import Runa.Concurrent.Interleaving
import Runa.Memory.Agents
import Runa.Memory.SharedTable
import Runa.Memory.Manager
import Runa.Memory.Ceiling
import Runa.App.DaemonSocket
import Runa.Fit.Completeness
import Runa.App.Experts
import Runa.Layered.Sources
import Runa.App.Config
import Runa.App.Precedence
import Runa.Engine.Requests
import Runa.App.DaemonProto
import Runa.App.DaemonWire
import Runa.App.Chat
import Runa.App.ChatHistory
import Runa.App.FailedTurns
import Runa.App.Loading
import Runa.App.RunPaths
import Runa.App.PoolDaemon
import Runa.App.SameAnswer
import Runa.Engine.StopStream
import Runa.Bytes.Framing
import Runa.Bytes.Layouts
import Runa.Engine.PromptCache
import Runa.Engine.PrefixKeys
import Runa.Feedback.Median
import Runa.Fit.Calibration
import Runa.App.Bench
import Runa.Fit.LayerCounts
import Runa.App.ModelSpecs
import Runa.Cloud.AnthropicBody
import Runa.Fallible.Steps
import Runa.App.Messages
import Runa.App.OwnReplies
import Runa.App.ChatSetup
import Runa.App.ToolTurns
import Runa.Paths.Places
import Runa.App.Pull
import Runa.App.PulledModels
import Runa.App.PulledFiles
import Runa.App.StoredRefs
import Runa.Memory.AgentNames
import Runa.App.TrimmedHistory
import Runa.App.ToolRounds
import Runa.Core.ThinkLayers
import Runa.App.LoadWarnings
import Runa.App.LoraOrder
import Runa.Media.FrameChoice
import Runa.Engine.BudgetRuns
import Runa.Engine.SamplerLog
import Runa.Engine.Prefill
import Runa.Stream.Words
import Runa.Core.ThinkText
import Runa.Packing.Spans
import Runa.Media.VoiceSpans
import Runa.Kernels.Filters
import Runa.Kernels.Reference
import Runa.Kernels.Sample
import Runa.App.Wrapped
import Runa.App.GgufNames
import Runa.Engine.MistralEvents
import Runa.App.ShellWords
import Runa.Cloud.Images
import Runa.Edits.Distance
import Runa.Media.WordErrors
import Runa.Search.Bisection
import Runa.Fit.Ubatch
import Runa.Bytes.Base64
import Runa.Media.Base64
import Runa.App.RunJson
import Runa.Nested.Documents
import Runa.Cloud.InlineSecrets
import Runa.Concurrent.Mailboxes
import Runa.App.Server
import Runa.App.ServerSteps
import Runa.App.ServerRuns
import Runa.App.ServerMail
import Runa.App.ServerAnswers
import Runa.App.ServerEnds
import Runa.Rounds.Dialogues
import Runa.App.CloudRun
import Runa.App.CloudTalks
import Runa.App.Mcp
import Runa.Recall.Continuations
import Runa.Engine.DraftTable
import Runa.App.Commands
import Runa.App.OneSession
import Runa.Cells.Passes
import Runa.Kernels.Softmax
import Runa.App.Dialects
import Runa.App.Screen
import Runa.App.Exchanges
import Runa.Media.Transcripts
import Runa.Engine.CpuMoe
import Runa.Fit.Recommend
