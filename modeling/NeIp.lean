import NeIp.ByteBuf
import NeIp.PacketCrypto
import NeIp.Tunnel
import NeIp.Config
import NeIp.CryptoLayer2
import NeIp.CryptoLayer3
import NeIp.CryptoLayer4
import NeIp.CryptoDispatch
import NeIp.Fragment
import NeIp.DbRuntime
import NeIp.Forwarder
import NeIp.WanQueue
import NeIp.Sample
import NeIp.L2Wire
import NeIp.L3Wire
import NeIp.Reassembly
import NeIp.NoMixing
import NeIp.WanHistory
import NeIp.L4Wire
import NeIp.Bypass
import NeIp.FirstCome
import NeIp.MergeOrder
import NeIp.WireIdOrder
import NeIp.Flow
import NeIp.FlowTable
import NeIp.PolicySelect
import NeIp.WanSelect
import NeIp.RoundRobin
import NeIp.WanBalance
import NeIp.TcpPolicyPin
import NeIp.PinReload
import NeIp.Sweep
import NeIp.GcSweep
import NeIp.CText
import NeIp.PolicyRows
import NeIp.RowMeaning
import NeIp.IndexList
import NeIp.MergeSources
import NeIp.MergeSelect
import NeIp.WanPeers
import NeIp.TxRing
import NeIp.Worker
import NeIp.CleartextLeak
import NeIp.FragDelivery
import NeIp.GraceDecrypt
import NeIp.LanRouting
import NeIp.Runs
import NeIp.DrainGate
import NeIp.NonceUse
import NeIp.ReloadGrace
import NeIp.Daemon
import NeIp.Restart
import NeIp.ActiveSet
import NeIp.ProfileLookup
import NeIp.WireLookup
import NeIp.PacketCritical
import NeIp.ReloadDrain
import NeIp.OneConfig
import NeIp.SharedLayer
import NeIp.CircularBuffer
import NeIp.QueueLoops
import NeIp.Frames
import NeIp.FrameRelease
import NeIp.AccessLog
import NeIp.FrameAccess
import NeIp.DispatchAccess
import NeIp.LengthSafety
import NeIp.EmptyBody
import NeIp.ReceiveSafety
import NeIp.OnesComplement
import NeIp.Checksums
import NeIp.L3RoundTrip
import NeIp.TransportChecksum
import NeIp.SplitRoundTrip
import NeIp.ReassemblyBounds
import NeIp.StaleBytes
import NeIp.KeyLoop
import NeIp.StaleKey
import NeIp.FailedDecrypt
import NeIp.GcmAuth
import NeIp.GcmCache
import NeIp.L4RoundTrip
import NeIp.FreshRebuild
import NeIp.ChainedTable
import NeIp.PinMap
import NeIp.PinEnd
import NeIp.FlowMap
import NeIp.ByteCharge
import NeIp.WanRange
import NeIp.Rotation
import NeIp.WindowRotation
import NeIp.UmemLayout
import NeIp.LinearProbing
import NeIp.ArpCache
import NeIp.ScanText
import NeIp.ArpFile
import NeIp.LinkMtu
import NeIp.PortRanges
import NeIp.HexKey
import NeIp.HeaderPatch
import NeIp.CounterMode
import NeIp.Keystreams
import NeIp.L2Gateway
import NeIp.L2Tunnel
import NeIp.WanXdp
import NeIp.KeyedNumbers
import NeIp.PolicyLoad
import NeIp.ArpLink
import NeIp.PacketLedger
import NeIp.PacketDrain
import NeIp.MergedRows
import NeIp.RowSemantics
import NeIp.DaemonRows
import NeIp.EnvFile
import NeIp.Startup
import NeIp.WanWindows
