import Rtl8812au.Ies.Walk

/-!
# Merging P2P elements

`rtw_get_p2p_merged_ies_len` and `rtw_p2p_merge_ies` of `core/rtw_ieee80211.c`. The first sizes the
buffer that the second fills. They walk the elements with the same loop, whose offset is an `int` that
is compared as a `u32`; the first adds up the lengths in an `int`, the second in a `u8`. The elements
lie in a memory from address 0 on.
-/

namespace Rtl8812au.Ies

/-- The test for a P2P element: its identifier, and the four bytes behind its header. -/
def isP2p (m : Mem) (q : Nat) : Bool := decide (m q = vendorIe) && decide (m.read (q + 2) 4 = p2pOui)

section

variable {α : Type} (m : Mem) (inLen : Nat) (take : Nat → α → Outcome α)

/-- Take out the rest of a P2P element. -/
def takeOut (q : Nat) (a : α) : Outcome α := if isP2p m q then take q a else .done a

/-- One turn at the offset `i`. An offset below 0 is in front of the buffer. -/
def mergeTurn (s : Int × α) : Outcome (Turn (Int × α) α) :=
  if inLen ≤ (s.1 % 2 ^ 32).toNat then .done (.stop s.2)
  else if s.1 < 0 then .overrun
  else do
    let a ← takeOut m take s.1.toNat s.2
    pure (.next ((s.1 + ((m (s.1.toNat + 1)).toNat + 2 : Nat)).bmod (2 ^ 32), a))

end

/-- `len += pIE->Length-4`, an `int`. -/
def addLength (m : Mem) (q : Nat) (len : Int) : Outcome Int :=
  .done ((len + ((m (q + 1)).toNat - 4 : Int)).bmod (2 ^ 32))

/-- `rtw_get_p2p_merged_ies_len` ends and returns `ret`. -/
def RtwGetP2pMergedIesLen (m : Mem) (inLen ret : Nat) : Prop :=
  ∃ len, Loop.Ends (mergeTurn m inLen (addLength m)) (0, 0) len
    ∧ ret = ((len + 4) % 2 ^ 32).toNat

/-- `ELOUI`. -/
def elOui : List UInt8 := [0xdd, 0x00, 0x50, 0x6f, 0x9a, 0x09]

/-- The copy behind what is in `merge_ie` already, with `len` in a `u8`. A length below 4 is a copy of
nearly all memory. -/
def appendBody (m : Mem) (q : Nat) (s : UInt8 × List UInt8) : Outcome (UInt8 × List UInt8) :=
  if (m (q + 1)).toNat < 4 then .overrun
  else .done (s.1 + (m (q + 1) - 4), s.2 ++ m.read (q + 6) ((m (q + 1)).toNat - 4))

/-- `rtw_p2p_merge_ies` ends with `out` in `merge_ie` and returns `ret`; without a buffer it returns 0. -/
def RtwP2pMergeIes (m : Mem) (inLen : Nat) (mergeIe : Bool) (out : List UInt8) (ret : Nat) : Prop :=
  if mergeIe then
    ∃ len, Loop.Ends (mergeTurn m inLen (appendBody m)) (0, (0, elOui)) (len, out)
      ∧ ret = len.toNat + 4
  else out = [] ∧ ret = 0

end Rtl8812au.Ies
