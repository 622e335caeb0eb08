import Rtl8812au.Lib.Reach

/-!
# The command queue

`rtw_enqueue_cmd` and `rtw_cmd_thread` of `core/rtw_cmd.c`, as steps that interleave: a caller is at
the filter, at the queue or at the semaphore, and the thread is at one of the places of its loop. The
log is what happens to the command objects and to the buffers attached to them.
-/

namespace Rtl8812au.Cmd

/-- `MAX_CMDSZ`. -/
def maxCmdsz : Nat := 1024

/-- `sizeof(struct drvextra_cmd_parm)`: three `int`s, four bytes of padding and a pointer. -/
def extraParmSz : Nat := 24

/-- `_DisConnect_CMD_`. -/
def disConnect : Nat := 15

/-- `_Set_Drv_Extra_CMD_`. -/
def setDrvExtra : Nat := 57

/-- `_SetChannelPlan_CMD_`. -/
def setChannelPlan : Nat := 59

/-- `C2H_WK_CID`. -/
def c2hWkCid : Nat := 11

def h2cSuccess : UInt8 := 0x00
def h2cDropped : UInt8 := 0x03
def h2cParametersError : UInt8 := 0x04

/-! ## Parameters -/

/-- The 32-bit little-endian value at an address. -/
def le32 (m : Mem) (a : Nat) : Nat := m.le16 a + m.le16 (a + 2) * 65536

/-- The 64-bit little-endian value at an address. -/
def le64 (m : Mem) (a : Nat) : Nat := le32 m a + le32 m (a + 4) * 4294967296

/-- `ec_id` of a `struct drvextra_cmd_parm`. -/
def ecId (m : Mem) : Nat := le32 m 0

/-- What is to be freed with a `struct drvextra_cmd_parm`: `pbuf`, if there is one and the `int`
`size` is positive. -/
def extraBuf (m : Mem) : Option Nat :=
  let size := le32 m 8
  let pbuf := le64 m 16
  if pbuf ≠ 0 ∧ 0 < size ∧ size < 2147483648 then some pbuf else none

/-- `struct cmd_obj`. Its `id` is its own allocation, as the pointer in its parameters is that of a
buffer: a later allocation is another one. -/
structure CmdObj where
  id : Nat
  cmdcode : Nat
  parm : Mem
  cmdsz : Nat
  /-- `res` as the caller left it. -/
  res : UInt8 := h2cSuccess
  sctx : Bool := false

/-- The buffer that goes with the object. -/
def CmdObj.buf (o : CmdObj) : Option Nat := if o.cmdcode = setDrvExtra then extraBuf o.parm else none

/-- `_RND4`. -/
def rnd4 (sz : Nat) : Nat := (sz / 4 + if sz % 4 = 0 then 0 else 1) * 4

/-! ## Tables -/

/-- The entries of `wlancmds` with a handler, of its 65. -/
def h2cfuns : List Nat := [14, 15, 16, 17, 18, 19, 20, 21, 45, 46, 55, 56, 57, 58, 59, 60, 61, 62, 63, 64]

/-- The number of entries in `wlancmds` and in `rtw_cmd_callback`. -/
def cmdTableSz : Nat := 65

inductive Callback where
  | getbbrfreg | joinbss | disassoc | createbss | survey | setstaKey | setassocsta
  deriving Repr, DecidableEq

/-- `rtw_cmd_callback`. -/
def rtwCmdCallback (cmdcode : Nat) : Option Callback :=
  match cmdcode with
  | 2 => some .getbbrfreg
  | 4 => some .getbbrfreg
  | 14 => some .joinbss
  | 15 => some .disassoc
  | 16 => some .createbss
  | 18 => some .survey
  | 21 => some .setstaKey
  | 22 => some .setassocsta
  | _ => none

/-- Whether a callback frees the object: that of a disassociation leaves before it does when the
command has failed. -/
def Callback.frees (c : Callback) (res : UInt8) : Bool :=
  match c with
  | .disassoc => res = h2cSuccess
  | _ => true

/-- `disconnect_hdl` and `rtw_drvextra_cmd_hdl` succeed; the others return what they return. -/
def hdlResult (cmdcode : Nat) (ret : UInt8) : UInt8 :=
  if cmdcode = disConnect ∨ cmdcode = setDrvExtra then h2cSuccess else ret

/-! ## The system -/

/-- What happens to objects and buffers. -/
inductive Note where
  | queued (id : Nat)
  | ran (id : Nat)
  | signalled (id : Nat)
  | freed (id : Nat)
  | freedBuf (p : Nat)
  deriving Repr, DecidableEq

/-- Where the thread is. -/
inductive Pc where
  /-- Before its first step. -/
  | start
  /-- At `_rtw_down_sema`. -/
  | wait
  /-- Behind it. -/
  | woken
  /-- At `_next`. -/
  | next
  /-- With an object it has taken off the queue. -/
  | run (o : CmdObj)
  /-- At `post_process`. -/
  | post (o : CmdObj) (res : UInt8)
  /-- At the callback. -/
  | back (o : CmdObj) (res : UInt8)
  /-- In the loop that frees what is left. -/
  | drain
  /-- At `_rtw_up_sema(&terminate_cmdthread_sema)`. -/
  | raise
  /-- At the end of `cmdthd_running`. -/
  | leave
  | done

/-- `struct cmd_priv` and the adapter flags that are read here, with the callers. -/
structure CmdSys where
  queue : List CmdObj
  sema : Nat
  cmdbuf : Mem
  running : Bool
  stopReq : Bool
  hwInitCompleted : Bool
  /-- `bDriverStopped` or `bSurpriseRemoved`. -/
  stopped : Bool
  pc : Pc
  /-- Behind the filter. -/
  callers : List CmdObj
  /-- Behind the queue. -/
  raisers : List CmdObj
  /-- Returned with `_SUCCESS`. -/
  succeeded : List CmdObj
  /-- Returned with `_FAIL`. -/
  failed : List CmdObj
  log : List Note

/-- Nothing has been enqueued and the thread has not started. -/
def CmdSys.init (hwInitCompleted : Bool) : CmdSys where
  queue := []
  sema := 0
  cmdbuf := fun _ => 0
  running := false
  stopReq := false
  hwInitCompleted := hwInitCompleted
  stopped := false
  pc := .start
  callers := []
  raisers := []
  succeeded := []
  failed := []
  log := []

variable (s : CmdSys)

/-- `rtw_cmd_filter`. -/
def cmdFilter (o : CmdObj) : Bool :=
  let allow := (o.cmdcode = setDrvExtra ∧ ecId o.parm = c2hWkCid) ∨ o.cmdcode = setChannelPlan
  if (s.hwInitCompleted = false ∧ ¬ allow) ∨ s.running = false then false else true

/-- `rtw_enqueue_cmd` up to the filter. `rtw_free_cmd_obj` frees no `pbuf`. -/
def enqueueCmd (o : CmdObj) : CmdSys :=
  if cmdFilter s o then { s with callers := s.callers ++ [o] }
  else { s with failed := s.failed ++ [o], log := s.log ++ [.freed o.id] }

/-- `_rtw_enqueue_cmd` of a caller. Too long an object is left alone, with `_SUCCESS` all the same. -/
def insertCmd (id : Nat) : CmdSys :=
  match s.callers.find? (fun o => o.id = id) with
  | none => s
  | some o =>
    let s := { s with callers := s.callers.filter fun o => o.id ≠ id, raisers := s.raisers ++ [o] }
    if o.cmdsz > maxCmdsz then s
    else { s with queue := s.queue ++ [o], log := s.log ++ [.queued o.id] }

/-- The caller ups the semaphore and returns. -/
def raiseSema (id : Nat) : CmdSys :=
  match s.raisers.find? (fun o => o.id = id) with
  | none => s
  | some o =>
    { s with
      raisers := s.raisers.filter fun o => o.id ≠ id
      succeeded := s.succeeded ++ [o]
      sema := s.sema + 1 }

/-- The notes of freeing `pbuf`, if there is one. -/
def freeBuf : Option Nat → List Note
  | none => []
  | some p => [.freedBuf p]

/-- An object that has been dequeued: it is dropped, or its parameters go to `cmd_buf` and its handler
runs on these. The handler of a `_Set_Drv_Extra` frees the `pbuf` it finds there. -/
def runCmd (o : CmdObj) (ret : UInt8) : CmdSys :=
  if cmdFilter s o = false then
    { s with pc := .post o h2cDropped, log := s.log ++ freeBuf o.buf }
  else
    let buf := s.cmdbuf.copy 0 o.parm 0 (rnd4 o.cmdsz)
    if o.cmdcode < cmdTableSz then
      if o.cmdcode ∈ h2cfuns then
        let frees := if o.cmdcode = setDrvExtra then freeBuf (extraBuf buf) else []
        { s with
          cmdbuf := buf
          pc := .post o (hdlResult o.cmdcode ret)
          log := s.log ++ (.ran o.id :: frees) }
      else { s with cmdbuf := buf, pc := .post o o.res }
    else { s with cmdbuf := buf, pc := .post o h2cParametersError }

/-- The end of a command: its callback frees it, or the thread does. -/
def callbackCmd (o : CmdObj) (res : UInt8) : CmdSys :=
  let frees := match rtwCmdCallback o.cmdcode with
    | none => true
    | some c => c.frees res
  { s with pc := .next, log := s.log ++ if frees then [.freed o.id] else [] }

/-- The next step of `rtw_cmd_thread`. `up` is whether the semaphore was taken without a signal, `ret`
what a handler returns. -/
def threadStep (up : Bool) (ret : UInt8) : CmdSys :=
  match s.pc with
  | .start => { s with stopReq := false, running := true, pc := .wait }
  | .wait =>
    if up = false then { s with pc := .drain }
    else if s.sema = 0 then s
    else { s with sema := s.sema - 1, pc := .woken }
  | .woken =>
    if s.stopped ∨ s.stopReq then { s with pc := .drain }
    else if s.queue = [] then { s with pc := .wait }
    else { s with pc := .next }
  | .next =>
    if s.stopped then { s with pc := .drain }
    else
      match s.queue with
      | [] => { s with pc := .wait }
      | o :: q => { s with queue := q, pc := .run o }
  | .run o => runCmd s o ret
  | .post o res =>
    { s with pc := .back o res, log := s.log ++ if o.sctx then [.signalled o.id] else [] }
  | .back o res => callbackCmd s o res
  | .drain =>
    match s.queue with
    | [] => { s with pc := .raise }
    | o :: q => { s with queue := q, log := s.log ++ (freeBuf o.buf ++ [.freed o.id]) }
  | .raise => { s with pc := .leave }
  | .leave => { s with running := false, pc := .done }
  | .done => s

/-- What can happen next. -/
inductive CmdEvent where
  | enqueue (o : CmdObj)
  | insert (id : Nat)
  | raise (id : Nat)
  | thread (up : Bool) (ret : UInt8)
  /-- `rtw_stop_cmd_thread`. -/
  | stop
  | setHwInitCompleted (b : Bool)
  | setStopped (b : Bool)

def cmdStep : CmdEvent → CmdSys
  | .enqueue o => enqueueCmd s o
  | .insert id => insertCmd s id
  | .raise id => raiseSema s id
  | .thread up ret => threadStep s up ret
  | .stop =>
    if s.running = true ∧ s.stopReq = false then { s with stopReq := true, sema := s.sema + 1 } else s
  | .setHwInitCompleted b => { s with hwInitCompleted := b }
  | .setStopped b => { s with stopped := b }

end Rtl8812au.Cmd
