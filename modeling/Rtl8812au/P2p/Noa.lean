import Rtl8812au.Lib.Access
import Rtl8812au.P2p.NegoFrame
import Mathlib.Logic.Function.Basic

/-!
# Notice of absence

`process_p2p_ps_ie` of `core/rtw_p2p.c` on the elements of a beacon. The content of the first NoA attribute
is copied to a buffer on the stack and its descriptors go from there into the arrays of `wdinfo`, by an
offset of eight bits that is compared with a length of 32.

Addresses count from the elements, behind the twelve fixed bytes; what is read behind them may be
anything.
-/

namespace Rtl8812au.P2p

/-- `P2P_MAX_NOA_NUM`, `MAX_P2P_IE_LEN`, `P2P_ATTR_NOA` and `_BEACON_IE_OFFSET_`. -/
def maxNoaNum : Nat := 2
def maxP2pIeLen : Nat := 256
def attrNoa : Nat := 0x0c
def beaconIeOffset : Nat := 12

/-- `enum P2P_PS_MODE`. -/
inductive PsMode where
  | none
  | ctwindow
  | noa
  | mix
  deriving Repr, DecidableEq

/-- The states `p2p_ps_wk_cmd` is called with. -/
inductive PsCmd where
  | disable
  | enable
  deriving Repr, DecidableEq

/-- One index of `noa_count`, `noa_duration`, `noa_interval` and `noa_start_time`; the last three are
copied four bytes at a time. -/
structure NoaSlot where
  count : UInt8
  duration : List UInt8
  interval : List UInt8
  startTime : List UInt8
  deriving Repr, DecidableEq

/-- The fields of `wdinfo` that are read or written. -/
structure PsInfo where
  state : P2pState
  psMode : PsMode
  noaIndex : UInt8
  ctwindow : UInt8
  oppPs : UInt8
  noaNum : UInt8
  noa : Nat → NoaSlot

/-- What a call comes to: the fields, the commands that are queued, and what was used on the way. -/
structure PsRun where
  info : PsInfo
  cmds : List PsCmd
  used : List Access

/-! ## The attribute -/

/-- The search over the P2P elements: none with the attribute, a search that does not get on, or the
element with the attribute at `ptr` of `len` bytes. -/
inductive NoaSearch where
  | missing
  | hangs
  | found (ie : Nat × Nat) (ptr len : Nat)
  deriving Repr, DecidableEq

/-- `while(p2p_ie)`. -/
def noaSearch (m : Mem) (iesLen : Nat) : Nat → Option (Nat × Nat) → NoaSearch
  | 0, _ => .missing
  | _ + 1, none => .missing
  | fuel + 1, some ie =>
    match rtwGetP2pAttr m ie.1 ie.2 attrNoa with
    | .missing => noaSearch m iesLen fuel (nextP2pIe m iesLen ie)
    | .hangs => .hangs
    | .found ptr len =>
      if len = 0 then noaSearch m iesLen fuel (nextP2pIe m iesLen ie) else .found ie ptr len

/-! ## The descriptors -/

/-- The variables of the loop over the descriptors. -/
structure NoaScan where
  offset : UInt8
  num : UInt8
  noa : Nat → NoaSlot
  used : List Access

section

-- `noa_attr` and `attr_contentlen`
variable (attr : Mem) (contentlen : Nat)

/-- One descriptor. -/
def NoaScan.take (s : NoaScan) : NoaScan where
  offset := s.offset + 13
  num := s.num + 1
  noa := Function.update s.noa s.num.toNat
    { count := attr s.offset.toNat
      duration := attr.read (s.offset + 1).toNat 4
      interval := attr.read (s.offset + 5).toNat 4
      startTime := attr.read (s.offset + 9).toNat 4 }
  used := s.used ++
    [⟨s.num.toNat, 1, maxNoaNum⟩, ⟨s.offset.toNat, 1, contentlen⟩,
      ⟨(s.offset + 1).toNat, 4, contentlen⟩, ⟨(s.offset + 5).toNat, 4, contentlen⟩,
      ⟨(s.offset + 9).toNat, 4, contentlen⟩]

/-- `while(noa_offset < attr_contentlen)`, with `free` entries left in the arrays. One more is written
behind them: `none`. -/
def noaLoop : Nat → NoaScan → Option NoaScan
  | 0, s => if s.offset.toNat < contentlen then none else some s
  | free + 1, s => if s.offset.toNat < contentlen then noaLoop free (s.take attr contentlen) else some s

/-- Whether and how power save is set up. -/
def psCommand (fwInPsMode : Bool) (w : PsInfo) : PsInfo × List PsCmd :=
  if w.oppPs = 1 then ({ w with psMode := .ctwindow }, if fwInPsMode then [.enable] else [])
  else if 0 < w.noaNum then ({ w with psMode := .noa }, [.enable])
  else (w, if w.psMode ≠ .none then [.disable] else [])

/-- What the loop has stored, and power save by it. -/
def NoaScan.configure (fwInPsMode : Bool) (w : PsInfo) (s : NoaScan) : PsRun :=
  let r := psCommand fwInPsMode { w with noa := s.noa, noaNum := s.num }
  ⟨r.1, r.2, s.used⟩

/-- If the index has changed, or there are no settings yet, they are configured anew. -/
def Renews (w : PsInfo) (index : UInt8) : Prop := w.psMode = .none ∨ index ≠ w.noaIndex

instance (w : PsInfo) (index : UInt8) : Decidable (Renews w index) := inferInstanceAs (Decidable (_ ∨ _))

/-- The content in `noa_attr`. -/
def noaContent (fwInPsMode : Bool) (w : PsInfo) (used : List Access) : Option PsRun :=
  let used := used ++ [⟨0, 1, contentlen⟩]
  if Renews w (attr 0) then
    let w := { w with noaIndex := attr 0, oppPs := attr 1 >>> 7, ctwindow := attr 1 &&& 0x7f }
    let start : NoaScan := ⟨2, 0, w.noa, used ++ [⟨1, 1, contentlen⟩]⟩
    (if 2 < contentlen then noaLoop attr contentlen maxNoaNum start else some start).map
      (NoaScan.configure fwInPsMode w)
  else some ⟨w, [], used⟩

end

/-! ## The function -/

/-- A length as an `int`; a negative one is none. -/
def intLength (n : Nat) : Nat := if n < 2 ^ 31 then n else 0

/-- The attribute that the elements of a beacon have. -/
def beaconNoa (m : Mem) (iesLen : Nat) : NoaSearch :=
  noaSearch m (intLength iesLen) (intLength iesLen + 1) (rtwGetP2pIe m 0 (intLength iesLen))

/-- `process_p2p_ps_ie`; `port0` is false only with `CONFIG_CONCURRENT_MODE`, for the other interface.
`none`: it does not end, or writes behind its buffers. -/
def processP2pPsIe (m : Mem) (ieLength : Nat) (port0 fwInPsMode : Bool) (w : PsInfo) : Option PsRun :=
  if w.state = .none ∨ port0 = false ∨ ieLength ≤ beaconIeOffset then some ⟨w, [], []⟩
  else
    let iesLen := ieLength - beaconIeOffset
    match beaconNoa m iesLen with
    | .hangs => none
    | .missing =>
      let findP2p := (rtwGetP2pIe m 0 (intLength iesLen)).isSome
      some ⟨w, if findP2p = true ∧ w.psMode ≠ .none then [.disable] else [], []⟩
    | .found ie ptr len =>
      let n := contentLen 3 len
      if n ≤ maxP2pIeLen then
        -- the copy reads from the element and writes to `noa_attr`
        noaContent (bufWith (fun _ => 0) (m.read (ptr + 3) n)) n fwInPsMode w
          [⟨ptr + 3, n, ie.1 + ie.2⟩, ⟨0, n, maxP2pIeLen⟩]
      else none

end Rtl8812au.P2p
