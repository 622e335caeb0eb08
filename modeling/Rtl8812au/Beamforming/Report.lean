import Rtl8812au.Beamforming.Entry

/-!
# Compressed beamforming reports

`beamforming_get_report_frame` of `core/rtw_beamforming.c` and its way there through `OnAction`,
`OnAction_ht` and `OnAction_vht` of `core/rtw_mlme_ext.c`. A received frame is what `rx_data` points
to, with the number of its bytes.
-/

namespace Rtl8812au.Beamforming

/-- `u.hdr.rx_data` and `u.hdr.len` of a `union recv_frame`. -/
structure RecvFrame where
  rxData : Mem
  len : UInt32

namespace RecvFrame

/-- The byte at `k`, which is read only inside the frame. -/
def byte (f : RecvFrame) (k : Nat) : Outcome UInt8 :=
  if k < f.len.toNat then .done (f.rxData k) else .overrun

/-- The transmitter. -/
def ta (f : RecvFrame) : MacAddr := Wifi.getAddr2 f.rxData 0

/-- What stands behind the first `offset` bytes. -/
def tail (f : RecvFrame) (offset : Nat) : List UInt8 := f.rxData.read offset (f.len.toNat - offset)

end RecvFrame

/-- The bytes of `PreCsiReport`. -/
def preCsiReportSize : Nat := 327

/-- What `struct beamforming_entry` keeps of received reports. -/
structure Csi where
  preCsiReport : Mem := fun _ => 0
  defaultCsiCnt : UInt8 := 0
  bDefaultCsi : Bool := false

/-- `struct beamforming_info` with all of its entries. Taking an entry and giving it back leave the
reports in it. -/
structure Beam where
  info : Info := {}
  csi : EntryId → Csi := fun _ => {}

/-- A write to what one entry keeps. -/
def Beam.setCsi (b : Beam) (i : EntryId) (c : Csi) : Beam :=
  { b with csi := fun j => if j = i then c else b.csi j }

/-- `offset`: the header, the action with its control field and two SNR bytes. Other entries compare
nothing. -/
def Cap.reportOffset (c : Cap) : Option UInt32 :=
  if c.has .beamformerVhtSu then some 31
  else if c.has .beamformerHtExplicit then some 34
  else Option.none

/-- `_rtw_memcmp` of `sz` bytes from `at'` on, of which `dst` has `dstSize` and `src` has `srcSize`. -/
def rtwMemcmp (dst : Mem) (dstSize : Nat) (src : Mem) (srcSize at' sz : Nat) : Outcome Bool :=
  if at' + sz ≤ dstSize ∧ at' + sz ≤ srcSize then .done (dst.read at' sz == src.read at' sz) else .overrun

/-- `_rtw_memcpy` of `sz` bytes to the start of `dst`. -/
def rtwMemcpy (dst : Mem) (dstSize : Nat) (src : Mem) (srcSize sz : Nat) : Outcome Mem :=
  if sz ≤ dstSize ∧ sz ≤ srcSize then .done (dst.copy 0 src 0 sz) else .overrun

/-- `beamforming_get_report_frame`. -/
def Beam.getReportFrame (b : Beam) (f : RecvFrame) : Outcome Beam :=
  match b.info.getEntryByAddr f.ta with
  | none => .overrun    -- the capability is read through a null pointer
  | some i =>
    match (b.info.entry i).cap.reportOffset with
    | none => .done b
    | some offset => do
      let same ← rtwMemcmp (b.csi i).preCsiReport preCsiReportSize f.rxData f.len.toNat offset.toNat
        (f.len - offset).toNat
      let cnt := if same then (b.csi i).defaultCsiCnt + 1 else 0
      let pre ← rtwMemcpy (b.csi i).preCsiReport preCsiReportSize f.rxData f.len.toNat f.len.toNat
      pure (b.setCsi i { preCsiReport := pre, defaultCsiCnt := cnt, bDefaultCsi := decide (20 < cnt) })

/-- The body of `OnAction_ht` and `OnAction_vht` for the category and the action of their reports. -/
def Beam.onActionReport (category action : UInt8) (myid : MacAddr) (b : Beam) (f : RecvFrame) :
    Outcome Beam :=
  if Wifi.getAddr1 f.rxData 0 ≠ myid then .done b
  else do
    let c ← f.byte wlanHdrA3Len
    if c ≠ category then pure b
    else do
      let a ← f.byte (wlanHdrA3Len + 1)
      if a = action then b.getReportFrame f else pure b

/-- `OnAction_ht`. -/
def Beam.onActionHt (myid : MacAddr) (b : Beam) (f : RecvFrame) : Outcome Beam :=
  b.onActionReport 7 6 myid f

/-- `OnAction_vht`. An operating mode notification leaves the entries as they are. -/
def Beam.onActionVht (myid : MacAddr) (b : Beam) (f : RecvFrame) : Outcome Beam :=
  b.onActionReport 21 0 myid f

/-- `OnAction`, for the two handlers of its table that come to the entries. -/
def Beam.onAction (myid : MacAddr) (b : Beam) (f : RecvFrame) : Outcome Beam := do
  let category ← f.byte wlanHdrA3Len
  if category = 7 then b.onActionHt myid f
  else if category = 21 then b.onActionVht myid f
  else pure b

/-! ## Runs -/

/-- An HT or a VHT compressed beamforming report to this station. -/
def IsReport (myid : MacAddr) (f : RecvFrame) : Prop :=
  wlanHdrA3Len + 2 ≤ f.len.toNat ∧ Wifi.getAddr1 f.rxData 0 = myid
    ∧ (f.rxData 24 = 7 ∧ f.rxData 25 = 6 ∨ f.rxData 24 = 21 ∧ f.rxData 25 = 0)

instance (myid : MacAddr) (f : RecvFrame) : Decidable (IsReport myid f) :=
  inferInstanceAs (Decidable (_ ∧ _ ∧ _))

/-- A report that an entry has compared and stored: the report that its transmitter sent before it,
and where the comparison began. -/
structure Taken where
  report : RecvFrame
  pred : Option RecvFrame
  offset : Nat

/-- The entries, with what each has taken, latest first, and the latest report of every transmitter. -/
structure Sys where
  beam : Beam := {}
  taken : EntryId → List Taken := fun _ => []
  last : MacAddr → Option RecvFrame := fun _ => none

/-- A call that works on the table, or a received action frame. -/
inductive Act where
  | call (c : Call)
  | recv (f : RecvFrame)

/-- The entry that takes a report, with the offset for it. -/
def Beam.takes (b : Beam) (f : RecvFrame) : Option (EntryId × UInt32) := do
  let i ← b.info.getEntryByAddr f.ta
  let offset ← (b.info.entry i).cap.reportOffset
  pure (i, offset)

/-- The report is noted. -/
def Sys.note (s : Sys) (f : RecvFrame) : Sys :=
  { s with
    taken := fun j =>
      match s.beam.takes f with
      | none => s.taken j
      | some (i, offset) => if j = i then ⟨f, s.last f.ta, offset.toNat⟩ :: s.taken j else s.taken j
    last := fun a => if a = f.ta then some f else s.last a }

/-- One action. -/
def Sys.step (myid : MacAddr) (s : Sys) : Act → Outcome Sys
  | .call c => .done { s with beam := { s.beam with info := s.beam.info.step c } }
  | .recv f => do
    let b ← s.beam.onAction myid f
    pure { (if IsReport myid f then s.note f else s) with beam := b }

end Rtl8812au.Beamforming
