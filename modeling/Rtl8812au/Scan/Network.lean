import Rtl8812au.Lib.Reach
import Rtl8812au.Wifi
import Rtl8812au.Ap.Beacon

/-!
# The scan table

The networks a scan has found, as `core/rtw_mlme.c` keeps them: `MAX_BSS_CNT` entries, a pool of
the free ones, a queue of the others and a counter. `rtw_update_scanned_network` looks for the
network of a received frame in the queue and updates it, or takes a new entry for it, or the
entry that was heard least recently when the pool is empty.

`unsigned long` has 64 bits.
-/

namespace Rtl8812au

/-- `MAX_BSS_CNT`. -/
abbrev maxBssCnt : Nat := 128

abbrev BssSlot := Fin maxBssCnt

/-- `SCANQUEUE_LIFETIME`, in ms. -/
abbrev scanqueueLifetime : UInt32 := 20000

/-- `WLAN_BSSID_EX`: what is matched, what `update_network` computes with, and what a network is chosen
by. -/
structure WlanBssidEx extends BssidEx where
  macAddress : MacAddr := .zero
  privacy : UInt32 := 0
  infrastructureMode : UInt32 := 0
  /-- `Reserved[0]`: 1 for a beacon, 2 for a probe request, 3 for a probe response -/
  reserved0 : UInt8 := 0
  ssid : Mem := fun _ => 0
  ssidLength : Nat := 0
  rssi : Int := 0
  signalStrength : UInt8 := 0
  signalQuality : UInt8 := 0
  ssid_le : ssidLength ≤ 32 := by decide
  ie_le : ieLength ≤ maxIeSz := by decide

/-- `struct wlan_network`. -/
structure WlanNetwork where
  fixed : Bool := false
  lastScanned : UInt64 := 0
  network : WlanBssidEx := {}

/-- `rtw_get_capability_from_ie`, read as the little-endian word it is. -/
def WlanBssidEx.capability (b : WlanBssidEx) : UInt16 := UInt16.ofNat (b.ies.le16 10)

/-- `WLAN_CAPABILITY_BSS`, `WLAN_CAPABILITY_IBSS`. -/
abbrev wlanCapabilityBss : UInt16 := 1
abbrev wlanCapabilityIbss : UInt16 := 2

/-- `is_same_network`. -/
def isSameNetwork (src dst : WlanBssidEx) (feature : Bool) : Bool :=
  let sCap := src.capability
  let dCap := dst.capability
  if feature && src.macAddress = dst.macAddress then true
  else
    src.ssidLength = dst.ssidLength
    && src.macAddress = dst.macAddress
    && src.ssid.read 0 src.ssidLength = dst.ssid.read 0 src.ssidLength
    && sCap &&& wlanCapabilityIbss == dCap &&& wlanCapabilityIbss
    && sCap &&& wlanCapabilityBss == dCap &&& wlanCapabilityBss

/-- `memcpy(dst, src, get_WLAN_BSSID_EX_sz(src))`: the elements behind `IELength` stay. -/
def WlanBssidEx.copyFrom (dst src : WlanBssidEx) : WlanBssidEx :=
  { src with ies := dst.ies.copy 0 src.ies 0 src.ieLength }

/-! ## Time -/

/-- `rtw_get_current_time`. -/
def rtwGetCurrentTime (jiffies : UInt64) : UInt32 := jiffies.toUInt32

/-- `time_after`. -/
def timeAfter (a b : UInt64) : Bool := (b - a).toInt64 < 0

/-- `rtw_get_passing_time_ms`. -/
def rtwGetPassingTimeMs (hz : UInt32) (jiffies : UInt64) (start : UInt32) : UInt32 :=
  (jiffies - start.toUInt64).toUInt32 * 1000 / hz

/-- What the rest of the driver says at a call. -/
structure ScanEnv where
  jiffies : UInt64 := 0
  hz : UInt32 := 250
  /-- `WIFI_ADHOC_MASTER_STATE` or `WIFI_ADHOC_STATE` -/
  adhoc : Bool := false
  /-- `cur_network` in state `_FW_LINKED` -/
  curNetwork : Option WlanBssidEx := none
  /-- `recvpriv` -/
  signalStrength : UInt8 := 0
  signalQual : UInt8 := 0

/-- The time of the call as it is stored. -/
def ScanEnv.now (env : ScanEnv) : UInt64 := (rtwGetCurrentTime env.jiffies).toUInt64

/-! ## Entries -/

/-- `struct mlme_priv`: the entries and where they are. -/
structure ScanTable where
  net : BssSlot → WlanNetwork
  freeBssPool : List BssSlot
  scannedQueue : List BssSlot
  numOfScanned : UInt32

namespace ScanTable

/-- `_rtw_init_mlme_priv`, on the zeroed buffer. -/
def initMlmePriv : ScanTable where
  net := fun _ => {}
  freeBssPool := List.finRange maxBssCnt
  scannedQueue := []
  numOfScanned := 0

variable (t : ScanTable)

def setNet (s : BssSlot) (n : WlanNetwork) : ScanTable :=
  { t with net := fun s' => if s' = s then n else t.net s' }

/-- `_rtw_alloc_network`: the entry is in no list when it returns. -/
def allocNetwork (env : ScanEnv) : ScanTable × Option BssSlot :=
  match t.freeBssPool with
  | [] => (t, none)
  | s :: pool =>
    (({ t with freeBssPool := pool, numOfScanned := t.numOfScanned + 1 }).setNet s
      { t.net s with fixed := false, lastScanned := env.now }, some s)

/-- `_rtw_free_network`. -/
def freeNetwork (env : ScanEnv) (isfreeall : Bool) (t : ScanTable) (s : BssSlot) : ScanTable :=
  if (t.net s).fixed then t
  else
    let lifetime := if env.adhoc then 1 else scanqueueLifetime
    let deltaTime := rtwGetPassingTimeMs env.hz env.jiffies (t.net s).lastScanned.toUInt32
    if !isfreeall && deltaTime < lifetime then t
    else
      { t with
        scannedQueue := t.scannedQueue.filter (· != s)
        freeBssPool := t.freeBssPool ++ [s]
        numOfScanned := t.numOfScanned - 1 }

/-- `_rtw_free_network_queue`: the walk has the next entry before it frees one. -/
def freeNetworkQueue (env : ScanEnv) (isfreeall : Bool) : ScanTable :=
  t.scannedQueue.foldl (freeNetwork env isfreeall) t

/-! ## An update -/

/-- The new `oldest` at an entry that does not match. -/
def older (oldest : Option BssSlot) (s : BssSlot) : Option BssSlot :=
  match oldest with
  | none => some s
  | some o => if timeAfter (t.net o).lastScanned (t.net s).lastScanned then some s else some o

/-- The walk of `rtw_update_scanned_network`: the entry that matches, and `oldest`. -/
def findTarget (p2p : Bool) (target : WlanBssidEx) :
    List BssSlot → Option BssSlot → Option BssSlot × Option BssSlot
  | [], oldest => (none, oldest)
  | s :: rest, oldest =>
    if p2p && (t.net s).network.macAddress = target.macAddress then (some s, oldest)
    else if isSameNetwork (t.net s).network target p2p then (some s, oldest)
    else findTarget p2p target rest (t.older oldest s)

end ScanTable

/-- `update_network`. -/
def updateNetwork (env : ScanEnv) (dst src : WlanBssidEx) (updateIe : Bool) : WlanBssidEx :=
  let linked := env.curNetwork.any fun cur => isSameNetwork cur src false
  let mix (a b : UInt8) : UInt8 := UInt8.ofNat ((a.toNat + b.toNat * 4) / 5)
  let rightChannel := src.signalQuality != 101
  let ssFinal :=
    if linked then env.signalStrength
    else if rightChannel then mix src.signalStrength dst.signalStrength else dst.signalStrength
  let sqFinal :=
    if linked then env.signalQual
    else if rightChannel then mix src.signalQuality dst.signalQuality else dst.signalQuality
  let rssiFinal := if rightChannel then (src.rssi + dst.rssi * 4).tdiv 5 else dst.rssi
  let dst := if updateIe then dst.copyFrom src else dst
  { dst with signalStrength := ssFinal, signalQuality := sqFinal, rssi := rssiFinal }

/-- A new network: a signal of another channel says nothing. -/
def enterNetwork (dst target : WlanBssidEx) : WlanBssidEx :=
  let dst := dst.copyFrom target
  if dst.signalQuality = 101 then { dst with signalQuality := 0 } else dst

/-- `rtw_update_scanned_network`. `p2p` is that the P2P state is not `P2P_STATE_NONE`. -/
def ScanTable.updateScannedNetwork (p2p : Bool) (env : ScanEnv) (t : ScanTable)
    (target : WlanBssidEx) : ScanTable :=
  match t.findTarget p2p target t.scannedQueue none with
  | (some s, _) =>
    let old := t.net s
    -- probe resp(3) > beacon(1) > probe req(2)
    let updateIe := target.reserved0 != 2 && target.reserved0 ≥ old.network.reserved0
    t.setNet s { old with
      lastScanned := env.now, network := updateNetwork env old.network target updateIe }
  | (none, oldest) =>
    if t.freeBssPool.isEmpty then
      match oldest with
      | none => t
      | some s =>
        t.setNet s { fixed := false, lastScanned := env.now,
                     network := enterNetwork (t.net s).network target }
    else
      match t.allocNetwork env with
      | (t, none) => t
      | (t, some s) =>
        let t := t.setNet s { t.net s with
          network := enterNetwork (t.net s).network target, lastScanned := env.now }
        { t with scannedQueue := t.scannedQueue ++ [s] }

/-! ## Events -/

/-- What changes the table. -/
inductive ScanEvent where
  | update (env : ScanEnv) (target : WlanBssidEx)
  | freeQueue (env : ScanEnv) (isfreeall : Bool)

/-- One event, in the P2P state of the run. -/
def scanStep (p2p : Bool) (t : ScanTable) : ScanEvent → Outcome ScanTable
  | .update env target => .done (t.updateScannedNetwork p2p env target)
  | .freeQueue env isfreeall => .done (t.freeNetworkQueue env isfreeall)

end Rtl8812au
