import Rtl8812au.Lib.Access
import Rtl8812au.Lib.Loop
import Mathlib.Data.List.Basic

/-!
# Channel lists

`rtw_p2p_get_peer_ch_list` and `dump_p2p_attr_ch_list` of `core/rtw_p2p.c` on the content of a Channel List
attribute: a country string of three bytes, then an operating class, a count and as many channels, again
and again. Both count what is left down to 0, the first in 8 bits and the second in 32. The content lies
at address 0; what is behind it may be anything.
-/

namespace Rtl8812au.P2p

/-! ## The channels of the peer -/

/-- Where `rtw_p2p_get_peer_ch_list` is: `ch_content`, `ch_cnt`, what `peer_ch_list` holds, `ch_no`, and
the bytes of the content that were used. -/
structure PeerScan where
  ptr : Nat
  chCnt : UInt8
  chs : List UInt8
  chNo : UInt8
  used : List Access

section

-- the content, and its length
variable (m : Mem) (n : Nat)

/-- One entry: its count, and the channels behind it. -/
def PeerScan.take (s : PeerScan) : PeerScan where
  ptr := s.ptr + 1 + ((m (s.ptr + 1)).toNat + 1)
  chCnt := s.chCnt - 1 - (m (s.ptr + 1) + 1)
  chs := s.chs ++ m.read (s.ptr + 2) (m (s.ptr + 1)).toNat
  chNo := s.chNo + m (s.ptr + 1)
  used := s.used ++ [⟨s.ptr + 1, 1, n⟩, ⟨s.ptr + 2, (m (s.ptr + 1)).toNat, n⟩]

/-- `while( ch_cnt > 0)`; `peer_ch_list` has 100 bytes. -/
def peerTurn (s : PeerScan) : Outcome (Turn PeerScan PeerScan) :=
  if s.chCnt = 0 then .done (.stop s)
  else if (s.take m n).chs.length ≤ 100 then .done (.next (s.take m n))
  else .overrun

/-- `rtw_p2p_get_peer_ch_list` for a content of `n` bytes; the parameter `ch_cnt` is a `u8`. -/
def RtwP2pGetPeerChList (r : PeerScan) : Prop :=
  Loop.Ends (peerTurn m n) ⟨3, UInt8.ofNat n - 3, [], 0, []⟩ r

end

/-! ## The channels as text -/

/-- Where `dump_p2p_attr_ch_list` is: `pattr_temp`, `attr_contentlen`, what `ch_list` holds, and the bytes
of the content that were used. -/
structure DumpScan where
  ptr : Nat
  left : UInt32
  chs : List UInt8
  used : List Access

/-- A channel that is not in `ch_list` goes to its end. -/
def addDistinct (chs : List UInt8) (ch : UInt8) : List UInt8 := if ch ∈ chs then chs else chs ++ [ch]

section

variable (m : Mem) (n : Nat)

/-- One entry. -/
def DumpScan.take (s : DumpScan) : DumpScan where
  ptr := s.ptr + (2 + (m (s.ptr + 1)).toNat)
  left := s.left - (2 + (m (s.ptr + 1)).toUInt32)
  chs := (m.read (s.ptr + 2) (m (s.ptr + 1)).toNat).foldl addDistinct s.chs
  used := s.used ++ [⟨s.ptr + 1, 1, n⟩, ⟨s.ptr + 2, (m (s.ptr + 1)).toNat, n⟩]

/-- `while (attr_contentlen>0)`; `ch_list` has 40 bytes. -/
def dumpTurn (s : DumpScan) : Outcome (Turn DumpScan DumpScan) :=
  if s.left = 0 then .done (.stop s)
  else if (s.take m n).chs.length ≤ 40 then .done (.next (s.take m n))
  else .overrun

/-- The channels that `dump_p2p_attr_ch_list` collects from a content of `n` bytes. -/
def DumpChList (r : DumpScan) : Prop :=
  Loop.Ends (dumpTurn m n) ⟨3, UInt32.ofNat n - 3, [], []⟩ r

end

end Rtl8812au.P2p
