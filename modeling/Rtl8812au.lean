import Rtl8812au.Lib.Window
import Rtl8812au.Lib.Mem
import Rtl8812au.Lib.BlockMode
import Rtl8812au.Wifi
import Rtl8812au.Recv.Frame
import Rtl8812au.Recv.EthHdr
import Rtl8812au.Recv.Reorder
import Rtl8812au.Recv.ReorderProof
import Rtl8812au.Recv.Defrag
import Rtl8812au.Recv.DefragProof
import Rtl8812au.Security.Ccmp
import Rtl8812au.Security.CcmpProof
import Rtl8812au.Security.Wep
import Rtl8812au.Security.Tkip
import Rtl8812au.Security.Michael
import Rtl8812au.Adapter
import Rtl8812au.Xmit.Attrib
import Rtl8812au.Xmit.Coalesce
import Rtl8812au.Xmit.CoalesceProof
import Rtl8812au.Xmit.PacketNumber
import Rtl8812au.Recv.Decrypt
import Rtl8812au.Recv.DecryptProof
import Rtl8812au.Recv.Validate
import Rtl8812au.Recv.LengthProof
import Rtl8812au.Recv.Path
import Rtl8812au.Lib.Pool
import Rtl8812au.Recv.LetThrough
import Rtl8812au.Recv.Taken
import Rtl8812au.Recv.AccountProof
import Rtl8812au.Recv.Turns
import Rtl8812au.Recv.AccountRun
import Rtl8812au.Ap.Ie
import Rtl8812au.Ap.Beacon
import Rtl8812au.Ap.TimProof
import Rtl8812au.Ap.Caps
import Rtl8812au.Ap.CapsProof
import Rtl8812au.Ap.CapsRun
import Rtl8812au.Ap.SleepProof
import Rtl8812au.Ap.IndicationProof
import Rtl8812au.Ap.QueueProof
import Rtl8812au.Ap.ElemProof
import Rtl8812au.Ap.AidProof
import Rtl8812au.Ap.MlmeRules
import Rtl8812au.Ap.TableProof
import Rtl8812au.Ap.SharedKeyProof
import Rtl8812au.Ap.CountersProof
import Rtl8812au.Recv.PortProof
import Rtl8812au.Recv.TeardownProof
import Rtl8812au.Sta.Macid
import Rtl8812au.Sta.MacidProof
import Rtl8812au.Recv.BlockAck
import Rtl8812au.Recv.BlockAckProof
import Rtl8812au.Sta.Table
import Rtl8812au.Sta.TableProof
import Rtl8812au.Scan.Network
import Rtl8812au.Scan.NetworkProof
import Rtl8812au.Recv.BulkIn
import Rtl8812au.Recv.BulkInProof
import Rtl8812au.Xmit.Dump
import Rtl8812au.Xmit.DumpProof
import Rtl8812au.Xmit.Aggregate
import Rtl8812au.Xmit.AggregateProof
import Rtl8812au.Efuse.Walk
import Rtl8812au.Efuse.Log
import Rtl8812au.Efuse.WalkProof
import Rtl8812au.Efuse.Write
import Rtl8812au.Efuse.WriteLog
import Rtl8812au.Efuse.WriteProof
import Rtl8812au.P2p.GoNego
import Rtl8812au.P2p.GoNegoProof
import Rtl8812au.Lib.Copies
import Rtl8812au.P2p.NegoFrame
import Rtl8812au.P2p.NegoFrameProof
import Rtl8812au.Security.Cam
import Rtl8812au.Security.CamProof
import Rtl8812au.Cmd.Queue
import Rtl8812au.Cmd.QueueProof
import Rtl8812au.Security.Bip
import Rtl8812au.Security.BipProof
import Rtl8812au.Beamforming.Entry
import Rtl8812au.Beamforming.EntryProof
import Rtl8812au.Beamforming.Report
import Rtl8812au.Beamforming.ReportProof
import Rtl8812au.Bridge.Nat25
import Rtl8812au.Lib.Chained
import Rtl8812au.Bridge.Table
import Rtl8812au.Bridge.Answer
import Rtl8812au.Bridge.DeliveryProof
import Rtl8812au.Lib.OnesSum
import Rtl8812au.Bridge.Rewrite
import Rtl8812au.Bridge.RewriteProof
import Rtl8812au.Bridge.ChecksumProof
import Rtl8812au.Bridge.Pppoe
import Rtl8812au.Bridge.PppoeProof
import Rtl8812au.Ies.Walk
import Rtl8812au.Ies.WalkProof
import Rtl8812au.Ies.Attr
import Rtl8812au.Ies.AttrProof
import Rtl8812au.Ies.SecIe
import Rtl8812au.Ies.SecIeProof
import Rtl8812au.Ies.Remove
import Rtl8812au.Ies.RemoveProof
import Rtl8812au.Ies.Lookup
import Rtl8812au.Ies.Wmm
import Rtl8812au.Ies.WmmProof
import Rtl8812au.Ies.ParseElems
import Rtl8812au.Ies.ParseElemsProof
import Rtl8812au.Ap.BcnIe
import Rtl8812au.Ap.BcnIeProof
import Rtl8812au.Ap.Acl
import Rtl8812au.Ap.AclProof
import Rtl8812au.Xmit.EthernetProof
import Rtl8812au.Security.Rc4Proof
import Rtl8812au.Lib.BigEndian
import Rtl8812au.Security.TkipProof
import Rtl8812au.Security.Aes
import Rtl8812au.Security.AesProof
import Rtl8812au.Ies.SuitesProof
import Rtl8812au.Recv.AmsduProof
import Rtl8812au.Ies.P2pMerge
import Rtl8812au.Ies.P2pMergeProof
import Rtl8812au.Lib.Splice
import Rtl8812au.Ies.P2pAttribute
import Rtl8812au.Ies.P2pRemove
import Rtl8812au.Ies.P2pRemoveProof
import Rtl8812au.P2p.Noa
import Rtl8812au.P2p.NoaProof
import Rtl8812au.Lib.Access
import Rtl8812au.P2p.ChList
import Rtl8812au.P2p.ChListProof
import Rtl8812au.P2p.InclusionProof
import Rtl8812au.Hal.TxPower
import Rtl8812au.Hal.TxPowerProof
import Rtl8812au.Lib.Sweep
import Rtl8812au.Hal.PowerLimit
import Rtl8812au.Hal.PowerLimitTables
import Rtl8812au.Hal.PowerLimitProof
import Rtl8812au.Lib.Crc
import Rtl8812au.Security.Crc
import Rtl8812au.Security.MichaelProof
import Rtl8812au.Recv.MicProof
import Rtl8812au.Vht.OpMode
import Rtl8812au.Vht.OpModeProof
import Rtl8812au.Lib.Pick
import Rtl8812au.Scan.Roam
import Rtl8812au.Scan.RoamProof
import Rtl8812au.Hal.CondTable
import Rtl8812au.Hal.CondTableProof
import Rtl8812au.Hal.PwrSeq
import Rtl8812au.Hal.PwrSeqProof
import Rtl8812au.Lib.History
import Rtl8812au.Lib.Pact
import Rtl8812au.Mlme.Addba
import Rtl8812au.Mlme.AddbaProof
import Rtl8812au.Mlme.Client
import Rtl8812au.Mlme.ClientProof
import Rtl8812au.Mlme.Dispatch
import Rtl8812au.Mlme.DispatchProof
import Rtl8812au.Mlme.DispatchRuns
import Rtl8812au.Hal.Fwdl
import Rtl8812au.Hal.FwdlProof
import Rtl8812au.Hal.Llt
import Rtl8812au.Hal.LltProof
