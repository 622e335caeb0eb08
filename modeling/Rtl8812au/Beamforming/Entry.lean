import Rtl8812au.Wifi

/-!
# Beamforming entries

The entry table of `core/rtw_beamforming.c` with the sounding it drives, and what
`hal/rtl8812a/rtl8812a_hal_init.c` does to the table when the sounding registers are set. Register
writes and the announcement frames themselves are left out.
-/

namespace Rtl8812au.Beamforming

/-- `BEAMFORMING_ENTRY_NUM`. -/
abbrev entryNum : Nat := 2

/-- The index of an entry. -/
abbrev EntryId := Fin entryNum

/-- `BEAMFORMING_ENTRY_STATE`. -/
inductive EntryState where
  | notInitialized | initializeing | initialized | progressing | progressed
  deriving Repr, DecidableEq

/-- `BEAMFORMING_STATE`. -/
inductive BeamState where
  | idle | start | ended
  deriving Repr, DecidableEq

/-- `SOUNDING_MODE`, in the order of its numbers. -/
inductive SoundingMode where
  | swVhtTimer | swHtTimer | stopAllTimer | hwVhtTimer | hwHtTimer | stopOidTimer | autoVhtTimer
  | autoHtTimer | fwVhtTimer | fwHtTimer
  deriving Repr, DecidableEq

/-- `CHANNEL_WIDTH`. -/
inductive ChannelWidth where
  | w20 | w40 | w80 | w160 | w80w80
  deriving Repr, DecidableEq

/-- `BEAMFORMING_CAP`. -/
abbrev Cap := BitVec 8

namespace Cap

def none : Cap := 0x0
def beamformerHtExplicit : Cap := 0x1
def beamformeeHtExplicit : Cap := 0x2
def beamformerVhtSu : Cap := 0x4
def beamformeeVhtSu : Cap := 0x8
def beamformer : Cap := 0x10
def beamformee : Cap := 0x20

/-- `TEST_FLAG`. -/
def has (c flag : Cap) : Bool := c &&& flag != 0

/-- We may sound the peer. -/
def sounds (c : Cap) : Bool := c.has beamformerVhtSu || c.has beamformerHtExplicit

/-- The peer may sound us. -/
def reports (c : Cap) : Bool := c.has beamformeeVhtSu || c.has beamformeeHtExplicit

end Cap

/-- `struct beamforming_entry`, without what it keeps of received reports. -/
structure Entry where
  used : Bool := false
  sound : Bool := false
  aid : UInt16 := 0
  macId : UInt16 := 0
  pAid : UInt16 := 0
  macAddr : MacAddr := .zero
  soundBw : ChannelWidth := .w20
  soundPeriod : UInt16 := 0
  cap : Cap := .none
  state : EntryState := .notInitialized
  logSeq : UInt8 := 0
  logRetryCnt : UInt8 := 0
  logSuccessCnt : UInt8 := 0
  logStatusFailCnt : UInt8 := 0
  deriving Repr, DecidableEq

/-- `struct sounding_info`. -/
structure SoundingInfo where
  soundIdx : EntryId := 0
  soundBw : ChannelWidth := .w20
  soundMode : SoundingMode := .swVhtTimer
  soundPeriod : UInt16 := 0
  deriving Repr, DecidableEq

/-- `struct beamforming_info`. Nothing in the driver writes `curIdx`. -/
structure Info where
  cap : Cap := .none
  state : BeamState := .idle
  entry : EntryId → Entry := fun _ => {}
  curIdx : EntryId := 0
  soundingInfo : SoundingInfo := {}

/-- What `beamforming_enter` reads of `struct sta_info`. -/
structure Station where
  hwaddr : MacAddr
  aid : UInt32
  macId : UInt32
  wirelessMode : UInt8
  bwMode : ChannelWidth
  htBeamformCap : UInt8
  vhtBeamformCap : UInt8
  deriving Repr, DecidableEq

/-- What `beamforming_enter` reads of the adapter: its own capabilities, its mode and the last byte
of its address. -/
structure Env where
  htBeamformCap : UInt8
  vhtBeamformCap : UInt8
  apState : Bool
  adhocState : Bool
  macAddr5 : UInt8
  deriving Repr, DecidableEq

/-- `IsSupportedHT`. -/
def isSupportedHT (mode : UInt8) : Bool := mode &&& 0x18 != 0

/-- `IsSupportedVHT`. -/
def isSupportedVHT (mode : UInt8) : Bool := mode &&& 0x40 != 0

/-- The capability of `beamforming_init_entry`. We are beamformee because the station is beamformer,
and the other way around. -/
def Station.beamformCap (s : Station) : Cap :=
  (if s.htBeamformCap &&& 0x1 != 0 then Cap.beamformeeHtExplicit else Cap.none)
    ||| (if s.htBeamformCap &&& 0x2 != 0 then Cap.beamformerHtExplicit else Cap.none)
    ||| (if isSupportedVHT s.wirelessMode then
          (if s.vhtBeamformCap &&& 0x1 != 0 then Cap.beamformeeVhtSu else Cap.none)
            ||| (if s.vhtBeamformCap &&& 0x2 != 0 then Cap.beamformerVhtSu else Cap.none)
        else Cap.none)

/-- `p_aid` of a new entry. -/
def Env.partialAid (env : Env) (ra : MacAddr) (aid : UInt16) : UInt16 :=
  if env.apState then
    let bssid := ((env.macAddr5 &&& 0xf0) >>> 4) ^^^ (env.macAddr5 &&& 0xf)
    (aid + bssid.toUInt16 * 32) &&& 0x1ff
  else if env.adhocState then
    0
  else
    (ra.b5.toUInt16 <<< 1) ||| (ra.b4 >>> 7).toUInt16

namespace Info

variable (b : Info)

/-- `beamforming_get_entry_by_addr`. -/
def getEntryByAddr (ra : MacAddr) : Option EntryId :=
  (List.finRange entryNum).find? fun i => (b.entry i).used && decide ((b.entry i).macAddr = ra)

/-- `beamforming_get_free_entry`. -/
def getFreeEntry : Option EntryId :=
  (List.finRange entryNum).find? fun i => !(b.entry i).used

/-- A write to one entry. -/
def setEntry (i : EntryId) (e : Entry) : Info :=
  { b with entry := fun j => if j = i then e else b.entry j }

/-- `beamforming_add_entry`. -/
def addEntry (env : Env) (ra : MacAddr) (aid macId : UInt16) (bw : ChannelWidth) (cap : Cap) :
    Option (EntryId × Info) :=
  match b.getFreeEntry with
  | none => none
  | some i => some (i, b.setEntry i
      { used := true, aid, macId, soundBw := bw, pAid := env.partialAid ra aid, macAddr := ra,
        sound := false, soundPeriod := 200, cap, state := .notInitialized, logSeq := 0xff,
        logRetryCnt := 0, logSuccessCnt := 0, logStatusFailCnt := 0 })

/-- The entry is given back. Its address and parameters stay in it. -/
def releaseEntry (i : EntryId) : Info :=
  b.setEntry i { b.entry i with used := false, cap := .none, state := .notInitialized }

/-- `beamforming_remove_entry`: `none` for `_FALSE`. -/
def removeEntry (ra : MacAddr) : Option (EntryId × Info) :=
  match b.getEntryByAddr ra with
  | none => none
  | some i => some (i, b.releaseEntry i)

/-- `beamforming_get_beamform_cap`. -/
def getBeamformCap : Cap :=
  (if (List.finRange entryNum).any fun i => (b.entry i).used && (b.entry i).cap.sounds then
      Cap.beamformer else Cap.none)
    ||| (if (List.finRange entryNum).any fun i => (b.entry i).used && (b.entry i).cap.reports then
      Cap.beamformee else Cap.none)

/-- `beamfomring_bSounding`. -/
def bSounding : Bool := b.getBeamformCap.has .beamformer

/-- `beamforming_sounding_idx`: the first entry that has not been sounded, else 0. -/
def soundingIdx : EntryId :=
  ((List.finRange entryNum).find? fun i => (b.entry i).used && !(b.entry i).sound).getD 0

/-- `beamforming_sounding_mode`. -/
def soundingMode (i : EntryId) : SoundingMode :=
  if (b.entry i).cap.has .beamformerVhtSu then .fwVhtTimer
  else if (b.entry i).cap.has .beamformerHtExplicit then .fwHtTimer
  else .stopAllTimer

/-- `beamforming_select_beam_entry`. An `EntryId` is below `BEAMFORMING_ENTRY_NUM`, which the source
checks. -/
def selectBeamEntry : Info :=
  let i := b.soundingIdx
  let mode := b.soundingMode i
  let info := { b.soundingInfo with soundIdx := i, soundMode := mode }
  if mode = .stopAllTimer then
    { b with soundingInfo := info }
  else
    { b with soundingInfo :=
        { info with soundBw := (b.entry i).soundBw, soundPeriod := (b.entry i).soundPeriod } }

/-- `SetBeamformFwTxBF_8812`: `HW_VAR_SOUNDING_FW_NDPA`. The announcement is downloaded before the
call returns. -/
def setBeamformFwTxBF (i : EntryId) : Info :=
  if (b.entry i).state = .progressing then
    b.setEntry i { b.entry i with state := .progressed }
  else b

/-- `beamforming_start_fw`. -/
def startFw (i : EntryId) : Info × Bool :=
  if (b.entry i).used = false then (b, false)
  else
    let b' := b.setEntry i { b.entry i with state := .progressing, sound := true }
    (b'.setBeamformFwTxBF i, true)

/-- `sound_mode` is one of the two firmware timers. -/
def fwTimer : Bool :=
  decide (b.soundingInfo.soundMode = .fwVhtTimer ∨ b.soundingInfo.soundMode = .fwHtTimer)

/-- `beamforming_start_period`. -/
def startPeriod : Info × Bool :=
  let b := b.selectBeamEntry
  if b.fwTimer then b.startFw b.soundingInfo.soundIdx else (b, false)

/-- `beamforming_end_period`. -/
def endPeriod : Info := if b.fwTimer then b.setBeamformFwTxBF 0 else b

/-- `beamforming_notify`. -/
def notify : Info :=
  match b.state with
  | .idle | .ended =>
    if b.bSounding then
      match b.startPeriod with
      | (b', true) => { b' with state := .start }
      | (b', false) => b'
    else b
  | .start =>
    if b.bSounding then
      match b.startPeriod with
      | (b', true) => b'
      | (b', false) => { b' with state := .ended }
    else { b.endPeriod with state := .ended }

/-- `SetBeamformRfMode_8812`. -/
def setBeamformRfMode : Info := { b with cap := b.getBeamformCap }

/-- `beamforming_init_entry`: `none` for `_FALSE`. -/
def initEntry (env : Env) (s : Station) : Option Info :=
  if env.htBeamformCap = 0 ∧ env.vhtBeamformCap = 0 then
    none
  else if isSupportedHT s.wirelessMode || isSupportedVHT s.wirelessMode then
    if s.beamformCap = .none then
      none
    else
      match b.getEntryByAddr s.hwaddr with
      | none =>
        match b.addEntry env s.hwaddr s.aid.toUInt16 s.macId.toUInt16 s.bwMode s.beamformCap with
        | none => none
        | some (i, b') => some (b'.setEntry i { b'.entry i with state := .initialized })
      | some i =>
        -- the entry is there: its state is set again, its parameters are not
        if (b.entry i).state ≠ .initialized ∧ (b.entry i).state ≠ .progressed then none
        else some (b.setEntry i { b.entry i with state := .initialized })
  else
    none

/-- `beamforming_enter`, with `SetBeamformEnter_8812`, which notifies. -/
def enter (env : Env) (s : Station) : Info :=
  match b.initEntry env s with
  | none => b
  | some b' => b'.setBeamformRfMode.notify

/-- `beamforming_deinit_entry`, with `SetBeamformLeave_8812`. -/
def deinitEntry (ra : MacAddr) : Info :=
  match b.removeEntry ra with
  | none => b
  | some (_, b') => b'.setBeamformRfMode

/-- One turn of `beamforming_reset`. -/
def resetTurn (i : EntryId) : Info :=
  if (b.entry i).used then (b.releaseEntry i).setBeamformRfMode else b

/-- `beamforming_reset`. -/
def reset : Info := (List.finRange entryNum).foldl resetTurn b

/-- `beamforming_leave`: no address means all of them. -/
def leave (ra : Option MacAddr) : Info :=
  match ra with
  | none => b.reset.notify
  | some ra => (b.deinitEntry ra).notify

/-- `beamforming_sounding_fail`. -/
def soundingFail : Info :=
  let i := b.curIdx
  let b := b.setEntry i { b.entry i with sound := false }
  let b := b.setBeamformFwTxBF i
  b.deinitEntry (b.entry i).macAddr

end Info

/-- The calls, each with what it finds at its time. -/
inductive Call where
  | enter (env : Env) (s : Station)
  | leave (ra : Option MacAddr)
  | notify
  | soundingFail

/-- One call. -/
def Info.step (b : Info) : Call → Info
  | .enter env s => b.enter env s
  | .leave ra => b.leave ra
  | .notify => b.notify
  | .soundingFail => b.soundingFail

/-- The table after a list of calls, from the zeroed one. -/
def run (calls : List Call) : Info := calls.foldl Info.step {}

end Rtl8812au.Beamforming
