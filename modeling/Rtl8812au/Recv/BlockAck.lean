import Rtl8812au.Adapter
import Rtl8812au.Lib.Reach

/-!
# Block-ack agreements

`process_addba_req` of `core/rtw_wlan_util.c`, the DELBA case of `OnAction_back` and
`_send_delba_sta_tid` of `core/rtw_mlme_ext.c`, as far as they work on the reorder control of a
station and TID. Frames that arrive and timers that fire go on working on the same control.
-/

namespace Rtl8812au

variable (a : Adapter)

/-- The TID in `BA_para_set`. -/
def addbaTid (param : UInt16) : Tid := Fin.ofNat 16 ((param >>> 2) &&& 0x0f).toNat

/-- The TID in the parameter field of a DELBA. -/
def delbaTid (param : UInt8) : Tid := Fin.ofNat 16 ((param >>> 4) &&& 0x0f).toNat

/-- `process_addba_req`. `accept` is `rtw_rx_ampdu_is_accept`. The driver is built without
`CONFIG_UPDATE_INDICATE_SEQ_WHILE_PROCESS_ADDBA_REQ`, so `start_seq` is not used. -/
def processAddbaReq (addr : MacAddr) (param : UInt16) (accept : Bool) : Adapter :=
  match rtwGetStainfo a addr with
  | none => a
  | some s =>
    let tid := addbaTid param
    a.updReorder s tid { (a.sta s).recvreorderCtrl tid with indicateSeq := 0xffff, enable := accept }

/-- A received DELBA. Only one from the originator, with `BIT(3)`, is about this direction. -/
def onDelba (addr : MacAddr) (param : UInt8) : Adapter :=
  match rtwGetStainfo a addr with
  | none => a
  | some s =>
    if param &&& 8 = 0 then a
    else
      let tid := delbaTid param
      a.updReorder s tid { (a.sta s).recvreorderCtrl tid with enable := false }

/-- `_send_delba_sta_tid` as the recipient. -/
def sendDelbaStaTid (s : StaSlot) (tid : Tid) (force : Bool) : Adapter :=
  let c := (a.sta s).recvreorderCtrl tid
  if force || c.enable then a.updReorder s tid { c with enable := false } else a

/-! ## Events -/

/-- A QoS frame; `GetSequence` is 12 bits wide. -/
structure QosFrame where
  frame : RecvFrame
  qos : frame.attrib.qos = true
  seq : frame.attrib.seqNum < 4096

/-- What works on the reorder controls. -/
inductive BaEvent where
  | arrive (s : StaSlot) (tid : Tid) (f : QosFrame)
  | timeout (s : StaSlot) (tid : Tid)
  | addba (addr : MacAddr) (param : UInt16) (accept : Bool)
  | delba (addr : MacAddr) (param : UInt8)
  | sendDelba (s : StaSlot) (tid : Tid) (force : Bool)

/-- One event, as far as the reorder controls go. -/
def baStep : BaEvent → Outcome Adapter
  | .arrive s tid f =>
    let r := recvIndicatepktReorder a.running a.mlme.mpState ((a.sta s).recvreorderCtrl tid) f.frame
    .done (a.updReorder s tid r.ctrl)
  | .timeout s tid =>
    let r := rtwReorderingCtrlTimeoutHandler a.running ((a.sta s).recvreorderCtrl tid)
    .done (a.updReorder s tid r.1)
  | .addba addr param accept => .done (processAddbaReq a addr param accept)
  | .delba addr param => .done (onDelba a addr param)
  | .sendDelba s tid force => .done (sendDelbaStaTid a s tid force)

/-- The controls as `rtw_alloc_stainfo` leaves them. -/
def FreshCtrls : Prop := ∀ s tid, (a.sta s).recvreorderCtrl tid = { enable := false }

end Rtl8812au
