import Kaede.Text
import Kaede.Infra.Machine
import Kaede.Infra.Infix
import Kaede.Infra.Ranking
import Kaede.Infra.Window
import Kaede.Infra.Jvm
import Kaede.Ai.PersonalityManager
import Kaede.Data.MemoryDao
import Kaede.Data.MemoryRepository
import Kaede.Data.MemoryManager
import Kaede.Ai.PromptBuilder
import Kaede.Ai.SmartStub
import Kaede.Ai.MlcLlm
import Kaede.ViewModel.ModelLoader
import Kaede.ViewModel.ChatViewModel
import Kaede.ViewModel.Transition
import Kaede.Properties.NativeFallback
import Kaede.Properties.StubReply
import Kaede.Properties.Numbered
import Kaede.Properties.History
import Kaede.Properties.Generations
import Kaede.Properties.OneReply
import Kaede.Properties.ClearChat
import Kaede.Properties.Forgetting
import Kaede.Properties.MessageKeys
import Kaede.Properties.LoadLaw
import Kaede.Data.Housekeeping
import Kaede.Properties.Cleanup
import Kaede.Data.UserPreferences
import Kaede.Properties.Counter
import Kaede.Data.KaedeDatabase
import Kaede.Properties.Singleton
import Kaede.Ai.ModelValidator
import Kaede.Properties.GgufHeader
import Kaede.Ai.PersonalityCalls
import Kaede.Properties.Moods
import Kaede.Infra.Json
import Kaede.Properties.MemoryPipeline
import Kaede.Infra.Lines
import Kaede.Properties.Export
import Kaede.Properties.PromptLayout
import Kaede.Ai.TokenBuffer
import Kaede.Properties.TokenBuffer
import Kaede.Infra.WhileLoop
import Kaede.Ui.TextFormatter
import Kaede.Properties.ContextRanking
import Kaede.Properties.Formatting
import Kaede.Properties.StoreBound
import Kaede.Properties.Search
import Kaede.Ai.MlcJni
import Kaede.Properties.Importance
import Kaede.Properties.NativeFlags
import Kaede.Infra.Encoding
import Kaede.Properties.Streaming
import Kaede.Ai.ModelCache
import Kaede.Properties.CacheComplete
import Kaede.Properties.BufferWindow
import Kaede.Util.PerformanceMonitor
import Kaede.Properties.TokenRate
import Kaede.Properties.TokenAccounting
import Kaede.Properties.ImportanceRange
import Kaede.Properties.StoragePolicy
import Kaede.Infra.Mutex
import Kaede.Infra.History
import Kaede.Ai.LlamaJni
import Kaede.Properties.HandleLedger
import Kaede.Properties.HandleLifetimes
import Kaede.Infra.Words
import Kaede.Ai.QueryClassifier
import Kaede.Properties.QueryWords
import Kaede.Infra.InputStream
import Kaede.Infra.Recogniser
import Kaede.Utf8
import Kaede.Gguf.Metadata
import Kaede.Gguf.Reader
import Kaede.Gguf.Structured
import Kaede.Properties.GgufFormat
import Kaede.Properties.GgufStreams
import Kaede.Properties.GgufDefault
import Kaede.Infra.Holdback
import Kaede.Infra.PositionedCells
import Kaede.AiChat.Utf8Check
import Kaede.AiChat.Session
import Kaede.Properties.ContextMemory
import Kaede.Properties.ContextLayout
import Kaede.Properties.Reply
import Kaede.AiChat.InferenceEngine
import Kaede.Properties.EngineMoves
import Kaede.Properties.EngineResources
import Kaede.Properties.EngineRuns
import Kaede.Infra.PriorityQueue
import Kaede.Infra.LinkedList
import Kaede.Infra.GreedyJoin
import Kaede.LlamaCpp.Tokenizer
import Kaede.Properties.TokenizerChain
import Kaede.Properties.TokenizerQueue
import Kaede.Properties.TokenizerRun
import Kaede.Properties.Tokenizer
