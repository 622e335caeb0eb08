import Rtl8812au.Ap.Mlme
import Rtl8812au.Mlme.Client

/-!
# Which handler a management frame gets

`mgt_dispatcher` of `core/rtw_mlme_ext.c`, which looks a frame up in `mlme_sta_tbl`, drops a retransmission,
and writes into the table what authentication and association requests are to be handled by. `CONFIG_AP_MODE`
and `CONFIG_NATIVEAP_MLME` are on, `CONFIG_HOSTAPD_MLME` and `CONFIG_TDLS` are off.

The handlers are those of `Client` and of `Ap`. A station and an access point are then what these two do behind
the dispatcher.
-/

namespace Rtl8812au

/-! ## `mlme_sta_tbl` -/

/-- The functions the table can name. -/
inductive MlmeHandler where
  | onAssocReq
  | onAssocRsp
  | onProbeReq
  | onProbeRsp
  | doReserved
  | onBeacon
  | onAtim
  | onDisassoc
  | onAuth
  | onAuthClient
  | onDeAuth
  | onAction
  deriving DecidableEq

/-- `mlme_sta_tbl` as it is compiled. -/
def mlmeStaTbl : List MlmeHandler :=
  [.onAssocReq, .onAssocRsp, .onAssocReq, .onAssocRsp, .onProbeReq, .onProbeRsp, .doReserved, .doReserved,
    .onBeacon, .onAtim, .onDisassoc, .onAuthClient, .onDeAuth, .onAction, .onAction]

/-- `WIFI_ASSOCREQ` and so on: subtype and type bits together. -/
abbrev wifiAssocReq : Nat := 0x00
abbrev wifiReassocReq : Nat := 0x20
abbrev wifiProbeReq : Nat := 0x40
abbrev wifiBeacon : Nat := 0x80
abbrev wifiAuth : Nat := 0xb0
abbrev wifiAction : Nat := 0xd0

/-! ## `mgt_dispatcher` -/

/-- The table, and `RxMgmtFrameSeqNum` of every station there is. -/
structure MgtDispatcher where
  table : List MlmeHandler := mlmeStaTbl
  rxMgmtFrameSeqNum : MacAddr → Option Nat := fun _ => none

/-- What is called with a frame. -/
inductive MgtCall where
  | func (h : MlmeHandler)
  /-- `rtw_hostapd_mlme_rx`, which does nothing without `CONFIG_HOSTAPD_MLME`. -/
  | hostapd
  deriving DecidableEq

/-- "ra(a1) is my address or ra(a1) is bc address". -/
def mgtForMe (me : MacAddr) (f : RecvFrame) : Bool :=
  Wifi.getAddr1 f.buf f.rxData = me ∨ Wifi.getAddr1 f.buf f.rxData = .bcast

/-- `_mgt_dispatcher`, which asks for the address once more. -/
def mgtFunc (me : MacAddr) (func : Option MlmeHandler) (f : RecvFrame) : List MgtCall :=
  match func with
  | none => []
  | some h => if mgtForMe me f then [.func h] else []

namespace MgtDispatcher

variable (d : MgtDispatcher)

/-- "drop the duplicate management frame". -/
def duplicate (f : RecvFrame) : Bool :=
  Wifi.getRetry f.buf f.rxData
    && d.rxMgmtFrameSeqNum (Wifi.getAddr2 f.buf f.rxData) = some f.attrib.seqNum

/-- `psta->RxMgmtFrameSeqNum = seq_num`, if there is such a station. -/
def noteSeq (f : RecvFrame) : MgtDispatcher :=
  { d with rxMgmtFrameSeqNum := fun a =>
      if a = Wifi.getAddr2 f.buf f.rxData ∧ (d.rxMgmtFrameSeqNum a).isSome then some f.attrib.seqNum
      else d.rxMgmtFrameSeqNum a }

/-- The branches on the subtype. -/
def serve (me : MacAddr) (ap : Bool) (f : RecvFrame) (index : Nat) : MgtDispatcher × List MgtCall :=
  let subtype := Wifi.getFrameSubType f.buf f.rxData
  if subtype = wifiAuth ∨ subtype = wifiAssocReq ∨ subtype = wifiReassocReq then
    let d := { d with table := d.table.set index (if ap then .onAuth else .onAuthClient) }
    -- "fallthrough"
    if subtype = wifiAssocReq ∨ subtype = wifiReassocReq then
      (d, mgtFunc me d.table[index]? f ++ if ap then [.hostapd] else [])
    else (d, [])
  else if subtype = wifiProbeReq then
    -- `CONFIG_HOSTAPD_MLME` is off: an access point does here what a station does
    (d, mgtFunc me d.table[index]? f)
  else if subtype = wifiBeacon ∨ subtype = wifiAction then (d, mgtFunc me d.table[index]? f)
  else (d, mgtFunc me d.table[index]? f ++ if ap then [.hostapd] else [])

/-- `mgt_dispatcher`; `ap` is `check_fwstate(pmlmepriv, WIFI_AP_STATE)`. -/
def mgtDispatcher (me : MacAddr) (ap : Bool) (f : RecvFrame) : MgtDispatcher × List MgtCall :=
  if Wifi.getFrameType f.buf f.rxData ≠ .mgt then (d, [])
  else if !mgtForMe me f then (d, [])
  else
    let index := Wifi.getFrameSubType f.buf f.rxData >>> 4
    if d.table.length ≤ index then (d, [])
    else if d.duplicate f then (d, [])
    else (d.noteSeq f).serve me ap f index

/-! ## Any order -/

/-- `rtw_alloc_stainfo` and `rtw_free_stainfo` from elsewhere. -/
def allocSta (addr : MacAddr) : MgtDispatcher :=
  { d with rxMgmtFrameSeqNum := fun a => if a = addr then some 0xffff else d.rxMgmtFrameSeqNum a }

def freeSta (addr : MacAddr) : MgtDispatcher :=
  { d with rxMgmtFrameSeqNum := fun a => if a = addr then none else d.rxMgmtFrameSeqNum a }

end MgtDispatcher

/-- What happens to the dispatcher. -/
inductive MgtEvent where
  | frame (ap : Bool) (f : RecvFrame)
  | alloc (addr : MacAddr)
  | free (addr : MacAddr)

def mgtStep (me : MacAddr) (d : MgtDispatcher) : MgtEvent → Outcome MgtDispatcher
  | .frame ap f => .done (d.mgtDispatcher me ap f).1
  | .alloc addr => .done (d.allocSta addr)
  | .free addr => .done (d.freeSta addr)

/-! ## A station behind the dispatcher -/

/-- What happens to a station: frames come through the dispatcher, the rest does not. `ap` is
`WIFI_AP_STATE`, which is set and cleared before `setopmode_hdl` and `stop_ap_mode` follow. -/
inductive StationEvent where
  | air (ap : Bool) (env : Client.BeaconEnv) (f : RecvFrame)
  | alloc (addr : MacAddr)
  | free (addr : MacAddr)
  | join (net : WlanBssidEx) (tooLong : Bool)
  | createBss (env : Client.CreateEnv) (net : WlanBssidEx)
  | staAdd (beaconSent : Bool)
  | disconnect
  | setopmode (mode : Client.OpMode)
  | stopApMode
  | setauth (mode : AuthAlgrthm)
  | linkTimer
  | linkLost (macAddr : MacAddr) (reason : Nat)

structure Station where
  dispatcher : MgtDispatcher := {}
  client : Client

/-- The handlers that have to do with joining; `OnDeAuth` and `OnDisassoc` of an access point do not. -/
def MlmeHandler.clientEvent (ap : Bool) (env : Client.BeaconEnv) (f : RecvFrame) :
    MlmeHandler → Option ClientEvent
  | .onBeacon => some (.beacon env f)
  | .onAuthClient => some (.auth f)
  | .onAssocRsp => some (.assocRsp f)
  | .onDeAuth => if ap then none else some (.deauth f)
  | .onDisassoc => if ap then none else some (.disassoc f)
  | _ => none

def MgtCall.clientEvent (ap : Bool) (env : Client.BeaconEnv) (f : RecvFrame) : MgtCall → Option ClientEvent
  | .func h => h.clientEvent ap env f
  | .hostapd => none

/-- What an event makes the station's handlers do, and what it leaves the dispatcher. -/
def Station.events (s : Station) : StationEvent → MgtDispatcher × List ClientEvent
  | .air ap env f =>
    let r := s.dispatcher.mgtDispatcher s.client.myid ap f
    (r.1, r.2.filterMap (MgtCall.clientEvent ap env f))
  | .alloc addr => (s.dispatcher.allocSta addr, [])
  | .free addr => (s.dispatcher.freeSta addr, [])
  | .join net tooLong => (s.dispatcher, [.join net tooLong])
  | .createBss env net => (s.dispatcher, [.createBss env net])
  | .staAdd beaconSent => (s.dispatcher, [.staAdd beaconSent])
  | .disconnect => (s.dispatcher, [.disconnect])
  | .setopmode mode => (s.dispatcher, [.setopmode mode])
  | .stopApMode => (s.dispatcher, [.stopApMode])
  | .setauth mode => (s.dispatcher, [.setauth mode])
  | .linkTimer => (s.dispatcher, [.linkTimer])
  | .linkLost macAddr reason => (s.dispatcher, [.linkLost macAddr reason])

def stationStep (s : Station) (e : StationEvent) : Outcome Station :=
  (runActions clientStep s.client (s.events e).2) >>= fun c => .done ⟨(s.events e).1, c⟩

/-! ## An access point behind the dispatcher -/

/-- What happens to an access point. -/
inductive ApAirEvent where
  | air (f : RecvFrame)
  | alloc (addr : MacAddr)
  | free (addr : MacAddr)
  | expire (t : Tick)
  | traffic (op : PsOp)

structure ApAir where
  dispatcher : MgtDispatcher := {}
  me : MacAddr
  ap : Ap

/-- The handlers that have to do with associating. -/
def MlmeHandler.apEvent (f : RecvFrame) : MlmeHandler → Option ApEvent
  | .onAuth => some (.auth f)
  | .onAssocReq => some (.assocReq f)
  | .onDeAuth => some (.deauth f)
  | .onDisassoc => some (.disassoc f)
  | _ => none

def MgtCall.apEvent (f : RecvFrame) : MgtCall → Option ApEvent
  | .func h => h.apEvent f
  | .hostapd => none

def ApAir.events (a : ApAir) : ApAirEvent → MgtDispatcher × List ApEvent
  | .air f =>
    let r := a.dispatcher.mgtDispatcher a.me true f
    (r.1, r.2.filterMap (MgtCall.apEvent f))
  | .alloc addr => (a.dispatcher.allocSta addr, [])
  | .free addr => (a.dispatcher.freeSta addr, [])
  | .expire t => (a.dispatcher, [.expire t])
  | .traffic op => (a.dispatcher, [.traffic op])

def apAirStep (a : ApAir) (e : ApAirEvent) : Outcome ApAir :=
  (runActions apStep a.ap (a.events e).2) >>= fun ap => .done ⟨(a.events e).1, a.me, ap⟩

end Rtl8812au
