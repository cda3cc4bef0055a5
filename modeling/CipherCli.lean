import CipherCli.Encryption.Aes
import CipherCli.Encryption.Ratchet
import CipherCli.Encryption.Session
import CipherCli.Encryption.SymbolicPrimitives
import CipherCli.Encryption.Endpoint
import CipherCli.Encryption.ForwardSecrecy
import CipherCli.Encryption.KeySecrecy
import CipherCli.Encryption.Lossy
import CipherCli.Library.BigEndian
import CipherCli.Library.Rlp
import CipherCli.Transfer.Eip155
import CipherCli.Transfer.Amount
import CipherCli.FileChunker.Chunker
import CipherCli.FileChunker.Integrity
import CipherCli.Message
import CipherCli.Library.Codec
import CipherCli.Crates
import CipherCli.Message.Layout
import CipherCli.Library.Containers
import CipherCli.Library.Runs
import CipherCli.Library.TwoWay
import CipherCli.Library.FirstMatch
import CipherCli.Transport.Direct
import CipherCli.Transport.Outbox
import CipherCli.Transport.Router
import CipherCli.Transport.Delivery
import CipherCli.Transport.Conservation
import CipherCli.Transport.RelayPool
import CipherCli.Transport.Failover
import CipherCli.Transport.CheckedFlush
import CipherCli.Transport.Poll
import CipherCli.Transport.ConnectionLoop
import CipherCli.Transport.Privacy
import CipherCli.Swarm.Client
import CipherCli.Swarm.ProcessIncoming
import CipherCli.Swarm.Reassembler
import CipherCli.Swarm.Dedup
import CipherCli.Swarm.Panics
import CipherCli.Swarm.Part
import CipherCli.Swarm.Attribution
import CipherCli.Swarm.Intact
import CipherCli.Swarm.SendFile
import CipherCli.Swarm.Arrivals
import CipherCli.Swarm.Reassembly
import CipherCli.Swarm.FileTransfer
import CipherCli.Swarm.SendMessage
import CipherCli.Swarm.Status
import CipherCli.Swarm.TextDelivery
import CipherCli.Swarm.EndToEnd
import CipherCli.Swarm.Confidentiality
import CipherCli.Swarm.EnvelopeIntegrity
import CipherCli.Swarm.Suppression
import CipherCli.Swarm.SealedSender
import CipherCli.Registry.UsernameRegistry
import CipherCli.Registry.InverseMaps
import CipherCli.IdentityStore.Store
import CipherCli.IdentityStore.Files
import CipherCli.IdentityStore.Cached
import CipherCli.Groups.Manager
import CipherCli.Groups.Roles
import CipherCli.Groups.Epochs
import CipherCli.Calls.CallManager
import CipherCli.Calls.CallIds
import CipherCli.Library.Measure
import CipherCli.Library.PairTree
import CipherCli.Transport.BleMesh
import CipherCli.Transport.MeshFlooding
import CipherCli.Transport.MeshDuplicates
import CipherCli.FileChunker.RoundTrip
import CipherCli.FileChunker.MerkleRoot
import CipherCli.FileChunker.Tampering
import CipherCli.Wallet.WalletCore
import CipherCli.Wallet.SignedBytes
import CipherCli.Library.FallibleRuns
import CipherCli.Swarm.Turn
import CipherCli.Swarm.ReceiptSource
import CipherCli.Swarm.ClientRuns
import CipherCli.Swarm.StatusOrder
import CipherCli.Swarm.ReceiptRace
import CipherCli.Swarm.Answers
import CipherCli.Swarm.Network
import CipherCli.Swarm.UnreadCounts
import CipherCli.Library.Decimal
import CipherCli.Library.Hex
import CipherCli.Transfer.Balance
import CipherCli.Wallet.Amounts
import CipherCli.Wallet.AmountParsers
import CipherCli.Wallet.Erc20
import CipherCli.Registry.ValidNames
import CipherCli.Registry.LocalCheck
import CipherCli.Transport.Acceptance
import CipherCli.Swarm.FileParts
import CipherCli.Swarm.FailedSends
import CipherCli.Swarm.AnnouncedChunks
import CipherCli.Message.WireLength
import CipherCli.Swarm.WireSizes
import CipherCli.Channels.Manager
import CipherCli.Channels.SubscriberCount
import CipherCli.Groups.Refusals
import CipherCli.Session.SessionFile
import CipherCli.Session.Expiry
import CipherCli.Library.Scale
import CipherCli.Rpc.TksRpcClient
import CipherCli.Rpc.NameEncoding
import CipherCli.Rpc.Decoders
import CipherCli.Commands.Resolve
import CipherCli.Commands.RecordStore
import CipherCli.Commands.Groups
import CipherCli.Commands.Channels
import CipherCli.Commands.CreatedRecords
import CipherCli.Commands.Unreadable
import CipherCli.Commands.Membership
import CipherCli.Calls.StateOrder
import CipherCli.Transport.MeshRoutes
import CipherCli.Transport.FetchFilter
import CipherCli.Library.Merge
import CipherCli.Transport.PoolMerges
import CipherCli.Transport.Discovery
import CipherCli.Library.UrlSyntax
import CipherCli.Transport.ChainEndpoints
import CipherCli.Library.Suffixes
import CipherCli.FileChunker.RelayIds
import CipherCli.FileChunker.Wire
import CipherCli.Library.Numbering
import CipherCli.Encryption.KeyReuse
import CipherCli.Swarm.ReadReceipts
import CipherCli.Library.LastWrite
import CipherCli.Swarm.SendFrame
import CipherCli.Swarm.Presence
import CipherCli.Wallet.Addresses
import CipherCli.Message.JsonText
import CipherCli.Transport.BodyLength
import CipherCli.Transport.RouterMode
import CipherCli.Commands.Mode
import CipherCli.Commands.SavedFiles
import CipherCli.Library.FairLock
import CipherCli.Library.Fairness
import CipherCli.Commands.Shell
import CipherCli.Commands.ShellLocks
import CipherCli.Commands.ShellReads
import CipherCli.Commands.ShellDeadlock
import CipherCli.Library.Renaming
import CipherCli.Transport.Spelling
import CipherCli.Swarm.Spelling
import CipherCli.Swarm.PeerSpellings
import CipherCli.Library.LockOrder
import CipherCli.Library.LockProgress
import CipherCli.Swarm.ClientLocks
import CipherCli.Swarm.NoDeadlock
import CipherCli.Ai.ManagerLocks
import CipherCli.Ai.Manager
import CipherCli.Ai.Conversations
import CipherCli.Ai.Interleavings
import CipherCli.Transport.PoolRefresh
import CipherCli.Swarm.Untracked
import CipherCli.Swarm.Correspondence
import CipherCli.Swarm.Contents
import CipherCli.Swarm.Provenance
import CipherCli.Swarm.SoundNetwork
import CipherCli.Swarm.InboxOrigin
import CipherCli.Swarm.InboxLedger
import CipherCli.Swarm.SteadyNetwork
import CipherCli.Library.RelayPaths
import CipherCli.Transport.MeshCoverage
import CipherCli.Library.Mailbox
import CipherCli.Library.MaxByKey
import CipherCli.Transport.MeshDevice
import CipherCli.Transport.MeshSelection
import CipherCli.Bots.BotManager
import CipherCli.Bots.UpdateOrder
import CipherCli.Calls.CallDesk
import CipherCli.Calls.Frames
import CipherCli.Library.Radix
import CipherCli.Wallet.SubstrateAddress
import CipherCli.Commands.Balance
