import ClawWork.Transition
import ClawWork.OrderedMap
import ClawWork.JavaScript
import ClawWork.SharedTypes
import ClawWork.GatewayProtocol
import ClawWork.GatewayClient
import ClawWork.PersistentGatewayClient
import ClawWork.RegistryFrames
import ClawWork.TerminalDiscipline
import ClawWork.AcceptedExecutions
import ClawWork.RunIsolation
import ClawWork.TaskFrames
import ClawWork.Cancellation
import ClawWork.EventJson
import ClawWork.TaskStore
import ClawWork.TasksService
import ClawWork.EventProjection
import ClawWork.ReadCommitted
import ClawWork.SequencedDelivery
import ClawWork.StatusFrames
import ClawWork.PersistCalls
import ClawWork.LogCommits
import ClawWork.TerminalStatus
import ClawWork.EventIds
import ClawWork.TaskStream
import ClawWork.PublicationOrder
import ClawWork.AdapterRelay
import ClawWork.RelayExit
import ClawWork.TaskEventBroker
import ClawWork.AdapterStream
import ClawWork.RelayRestarts
import ClawWork.ExactlyOnce
import ClawWork.Obligations
import ClawWork.DispatchTask
import ClawWork.CancelDispatch
import ClawWork.ServiceTables
import ClawWork.DailyQuota
import ClawWork.EnqueueTask
import ClawWork.ConcurrentTasks
import ClawWork.TaskReservations
import ClawWork.ResultVersions
import ClawWork.SessionBoard
import ClawWork.SessionCoherence
import ClawWork.PersistWrites
import ClawWork.HistoryDeletion
import ClawWork.FileCalls
import ClawWork.FileLinks
import ClawWork.StorageQuota
import ClawWork.ArtifactEvents
import ClawWork.SingleRelay
import ClawWork.DuplicateRelays
import ClawWork.RelayAgreement
import ClawWork.TenantIsolation
import ClawWork.AssistantDeltas
import ClawWork.Settlement
import ClawWork.StaleSockets
import ClawWork.EventResponses
import ClawWork.BrokerRetention
import ClawWork.ClientAgreement
import ClawWork.Exchanges
import ClawWork.Utf8
import ClawWork.ExecutePayload
import ClawWork.GatewayInput
import ClawWork.StorageReads
import ClawWork.JsonText
import ClawWork.AdmittedPayloads
import ClawWork.StreamCodec
import ClawWork.TaskProgress
import ClawWork.ApiProcess
import ClawWork.RecoveryInvariant
import ClawWork.StartupRecovery
import ClawWork.AuthService
import ClawWork.RefreshRotation
import ClawWork.AccountLockout
import ClawWork.MobileSession
import ClawWork.StaleRefresh
import ClawWork.StreamHandover
import ClawWork.FrameHandling
import ClawWork.FrameTotality
import ClawWork.TypedFrames
import ClawWork.DeadConnections
import ClawWork.StreamSubscription
import ClawWork.BodyText
import ClawWork.ReconnectDelivery
import ClawWork.ConversationStore
import ClawWork.ConversationContinuity
import ClawWork.StreamedMessages
import ClawWork.ConversationStream
import ClawWork.Resubscription
import ClawWork.ReadRuns
import ClawWork.KeptResult
import ClawWork.ReopenedConversation
import ClawWork.EventLines
import ClawWork.ChunkIndependence
import ClawWork.ChunkedStreams
import ClawWork.InterleavedReads
import ClawWork.LiveReplay
import ClawWork.ListFrame
import ClawWork.RecentConversations
import ClawWork.RefreshBursts
import ClawWork.Base64Url
import ClawWork.KeysetPaging
import ClawWork.HistoryPaging
import ClawWork.FailedDeletions
import ClawWork.StorageKeys
import ClawWork.AdapterShutdown
import ClawWork.CodeUnits
import ClawWork.DocumentBudget
import ClawWork.Csv
import ClawWork.SpreadsheetText
import ClawWork.TableShape
import ClawWork.NormalizedText
import ClawWork.ArtifactExtraction
import ClawWork.ParserOutput
import ClawWork.Acknowledgements
import ClawWork.SettledCalls
import ClawWork.QuietTransactions
import ClawWork.RepeatedDelivery
import ClawWork.FixedWindows
import ClawWork.RequestRate
import ClawWork.ParserServer
import ClawWork.DeliveredText
import ClawWork.StoredText
import ClawWork.ShownText
import ClawWork.Attachments
import ClawWork.PushTokens
import ClawWork.ArtifactArchive
import ClawWork.HistoryScreen
import ClawWork.SessionLedger
