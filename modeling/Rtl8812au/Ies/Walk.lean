import Rtl8812au.Lib.Loop
import Rtl8812au.Lib.Tlv

/-!
# The walkers over information elements

`rtw_get_ie`, `rtw_get_ie_ex`, `rtw_get_wps_ie` and `rtw_get_p2p_ie` of `core/rtw_ieee80211.c`, each as
a loop over the bytes it may read. A byte that is not there is not read: the walk leaves its buffer. The
counters have the width the source gives them.
-/

namespace Rtl8812au.Ies

/-- The byte at `i`. -/
def fetch (bs : List UInt8) (i : Nat) : Outcome UInt8 :=
  match bs[i]? with
  | some b => .done b
  | none => .overrun

/-- `_rtw_memcmp` of the bytes at `i` with `pat`; a comparison of no bytes reads nothing. -/
def memcmp (bs : List UInt8) (i : Nat) (pat : List UInt8) : Outcome Bool :=
  if pat = [] ∨ i + pat.length ≤ bs.length then .done (decide ((bs.drop i).take pat.length = pat))
  else .overrun

/-- `_rtw_memcpy` of `n` bytes from `i`. -/
def memcpy (bs : List UInt8) (i n : Nat) : Outcome (List UInt8) :=
  if i + n ≤ bs.length then .done ((bs.drop i).take n) else .overrun

/-! ## `rtw_get_ie` -/

/-- One turn of `rtw_get_ie` at `p`, with the `sint` that counts along. -/
def getIeTurn (bs : List UInt8) (index : UInt8) (limit : Int) (s : Nat × Int) :
    Outcome (Turn (Nat × Int) (Option (Nat × Nat))) := do
  let id ← fetch bs s.1
  let tmp ← fetch bs (s.1 + 1)
  if id = index then pure (.stop (some (s.1, tmp.toNat)))
  else
    let i := (s.2 + (tmp.toNat + 2 : Nat)).bmod (2 ^ 32)
    if limit ≤ i then pure (.stop none) else pure (.next (s.1 + (tmp.toNat + 2), i))

/-- `rtw_get_ie` from `p` on ends with `r`: nothing, or where the element is and its length byte. -/
def RtwGetIe (bs : List UInt8) (p : Nat) (index : UInt8) (limit : Int) (r : Option (Nat × Nat)) :
    Prop :=
  if limit < 1 then r = none else Loop.Ends (getIeTurn bs index limit) (p, 0) r

/-! ## The other three -/

/-- What a search has found: where, and what it has put into `*ielen` and `ie`. -/
structure Found where
  addr : Nat
  ielen : Option Nat
  ie : Option (List UInt8)
  deriving Repr, DecidableEq

/-- Which of the two results are asked for. -/
structure Wants where
  ielen : Bool
  ie : Bool

/-- The copy to `ie`. -/
def copyOut (bs : List UInt8) (w : Wants) (cnt : Nat) : Outcome (Option (List UInt8)) :=
  if w.ie then do
    let l ← fetch bs (cnt + 1)
    let ie ← memcpy bs cnt (l.toNat + 2)
    pure (some ie)
  else pure none

/-- The write to `*ielen`. -/
def lenOut (bs : List UInt8) (w : Wants) (cnt : Nat) : Outcome (Option Nat) :=
  if w.ielen then do
    let l ← fetch bs (cnt + 1)
    pure (some (l.toNat + 2))
  else pure none

/-- What is done with the element that was looked for. -/
def take (bs : List UInt8) (w : Wants) (cnt : Nat) : Outcome Found := do
  let ie ← copyOut bs w cnt
  let ielen ← lenOut bs w cnt
  pure ⟨cnt, ielen, ie⟩

/-- The element with identifier `id` at `cnt` is the one looked for. -/
def isIt (bs : List UInt8) (eid : UInt8) (oui : List UInt8) (cnt : Nat) (id : UInt8) : Outcome Bool :=
  if id = eid then memcmp bs (cnt + 2) oui else pure false

/-- One turn at `cnt`, a `uint`: an element with the id and behind its header the bytes of `oui`.
`giveUp` is what only one of the walkers has. -/
def searchTurn (bs : List UInt8) (inLen : Nat) (giveUp : Nat → Bool) (eid : UInt8) (oui : List UInt8)
    (w : Wants) (cnt : Nat) : Outcome (Turn Nat (Option Found)) :=
  if inLen ≤ cnt then pure (.stop none)
  else do
    let id ← fetch bs cnt
    if giveUp cnt then pure (.stop none)
    else
      let hit ← isIt bs eid oui cnt id
      if hit then
        let f ← take bs w cnt
        pure (.stop (some f))
      else
        let l ← fetch bs (cnt + 1)
        pure (.next ((cnt + (l.toNat + 2)) % 2 ^ 32))

/-- `_WPA_IE_ID_` and `_VENDOR_SPECIFIC_IE_`. -/
abbrev vendorIe : UInt8 := 221

/-- `wps_oui`, `p2p_oui`. -/
def wpsOui : List UInt8 := [0x00, 0x50, 0xf2, 0x04]
def p2pOui : List UInt8 := [0x50, 0x6f, 0x9a, 0x09]

/-- `rtw_get_ie_ex`; `oui` may be NULL. -/
def RtwGetIeEx (bs : List UInt8) (inLen : Nat) (eid : UInt8) (oui : Option (List UInt8)) (w : Wants)
    (r : Option Found) : Prop :=
  Loop.Ends (searchTurn bs inLen (fun _ => false) eid (oui.getD []) w) 0 r

/-- `rtw_get_wps_ie`. -/
def RtwGetWpsIe (bs : List UInt8) (inLen : Nat) (w : Wants) (r : Option Found) : Prop :=
  Loop.Ends (searchTurn bs inLen (fun _ => false) vendorIe wpsOui w) 0 r

/-- `MAX_IE_SZ`. -/
def maxIe : Nat := 768

/-- `rtw_get_p2p_ie`: `in_len` is an `int` that is compared as a `uint`, and tested for its sign once
the first byte is read. -/
def RtwGetP2pIe (bs : List UInt8) (inLen : Int) (w : Wants) (r : Option Found) : Prop :=
  Loop.Ends (searchTurn bs (inLen % 2 ^ 32).toNat (fun cnt => decide (inLen < 0) || decide (maxIe < cnt))
    vendorIe p2pOui w) 0 r

end Rtl8812au.Ies
