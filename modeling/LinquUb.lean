import LinquUb.Config
import LinquUb.Core
import LinquUb.Guest.Chat
import LinquUb.Guest.ChatLockStep
import LinquUb.Guest.CompletionRing
import LinquUb.Guest.CompletionWait
import LinquUb.Guest.Compute
import LinquUb.Guest.Crc32
import LinquUb.Guest.ImportWindows
import LinquUb.Guest.IrqDriver
import LinquUb.Guest.ObmmDemo
import LinquUb.Guest.ObmmOrder
import LinquUb.Guest.Pool
import LinquUb.Guest.PoolHandover
import LinquUb.Guest.PoolRounds
import LinquUb.Guest.PoolStartup
import LinquUb.Guest.Preview
import LinquUb.Guest.RdmaDemo
import LinquUb.Guest.RdmaHandshake
import LinquUb.Guest.RpcCodec
import LinquUb.Guest.RpcEcho
import LinquUb.Guest.RpcMessage
import LinquUb.Guest.RpcParsing
import LinquUb.Guest.RpcServer
import LinquUb.Guest.Strtol
import LinquUb.Guest.TcpAgreement
import LinquUb.Guest.TcpEachServer
import LinquUb.Guest.UrmaBench
import LinquUb.Guest.UrmaProbe
import LinquUb.LTS.Action
import LinquUb.LTS.AlignedSlots
import LinquUb.LTS.ByteStream
import LinquUb.LTS.Counter
import LinquUb.LTS.Datagrams
import LinquUb.LTS.FifoSet
import LinquUb.LTS.History
import LinquUb.LTS.KeyValueLines
import LinquUb.LTS.Metered
import LinquUb.LTS.Places
import LinquUb.LTS.Pointwise
import LinquUb.LTS.Run
import LinquUb.LTS.SeenTable
import LinquUb.LTS.ShiftRegister
import LinquUb.LTS.Window
import LinquUb.Legacy.Backend
import LinquUb.Legacy.Batches
import LinquUb.Legacy.ConfigHistory
import LinquUb.Legacy.ConfigSpace
import LinquUb.Legacy.Endpoint
import LinquUb.Legacy.EndpointRings
import LinquUb.Legacy.Interrupts
import LinquUb.Legacy.MessageLog
import LinquUb.Legacy.MessageQueue
import LinquUb.Legacy.MessageRegisters
import LinquUb.Legacy.MessageRings
import LinquUb.Legacy.Realize
import LinquUb.Legacy.Requests
import LinquUb.Legacy.RustBridge
import LinquUb.Qemu.Access
import LinquUb.Qemu.Adapter
import LinquUb.Qemu.Calls
import LinquUb.Qemu.Codec
import LinquUb.Qemu.Delivery
import LinquUb.Qemu.Device
import LinquUb.Qemu.Doorbell
import LinquUb.Qemu.Isolation
import LinquUb.Qemu.Latching
import LinquUb.Qemu.Memory
import LinquUb.Qemu.Methods
import LinquUb.Qemu.Polling
import LinquUb.Qemu.Provenance
import LinquUb.Qemu.Queues
import LinquUb.Qemu.Registers
import LinquUb.Qemu.Ring
import LinquUb.Qemu.Sessions
import LinquUb.Qemu.Slots
import LinquUb.Qemu.Status
import LinquUb.Qemu.Types
import LinquUb.Runtime.Advance
import LinquUb.Runtime.BlockStore
import LinquUb.Runtime.Bookkeeping
import LinquUb.Runtime.Composition
import LinquUb.Runtime.Deadline
import LinquUb.Runtime.Engine
import LinquUb.Runtime.FromConfig
import LinquUb.Runtime.Manifest
import LinquUb.Runtime.Queue
import LinquUb.Runtime.QueueBounds
import LinquUb.Runtime.Retries
import LinquUb.Runtime.TimeSums
import LinquUb.Services.Answers
import LinquUb.Services.Polling
import LinquUb.Services.Stub
import LinquUb.Services.Stubs
import LinquUb.Topology
import LinquUb.Topology.Build
import LinquUb.Topology.Checked
import LinquUb.Topology.WellFormed
import LinquUb.Uapi.Atomicity
import LinquUb.Uapi.Backpressure
import LinquUb.Uapi.Books
import LinquUb.Uapi.Commands
import LinquUb.Uapi.Conservation
import LinquUb.Uapi.Doorbell
import LinquUb.Uapi.Flow
import LinquUb.Uapi.Flush
import LinquUb.Uapi.ForceFlush
import LinquUb.Uapi.Grants
import LinquUb.Uapi.HashOrder
import LinquUb.Uapi.Isolation
import LinquUb.Uapi.Levels
import LinquUb.Uapi.Losses
import LinquUb.Uapi.Order
import LinquUb.Uapi.Returns
import LinquUb.Uapi.Rooms
import LinquUb.Uapi.Sequential
import LinquUb.Uapi.Simulation
import LinquUb.Uapi.Steady
import LinquUb.Uapi.Surface
import LinquUb.Uapi.Types
import LinquUb.Wire.Cursor
import LinquUb.Wire.Reader
import LinquUb.Workloads.Accounting
import LinquUb.Workloads.DualNode
import LinquUb.Workloads.Harness
import LinquUb.Workloads.Ledger
import LinquUb.Workloads.Minimal
import LinquUb.Workloads.Report
import LinquUb.Workloads.Requests
