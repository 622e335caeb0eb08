import Rtl8812au.Ap.Elems
import Rtl8812au.Lib.BigEndian

/-!
# The suites of WPA and RSN elements

`rtw_parse_wpa_ie` and `rtw_parse_wpa2_ie` of `core/rtw_ieee80211.c` with all that their pointers point
at: the group cipher, the pairwise ciphers, which are added to what is there already, and the flag for
802.1X, whose pointer may be NULL. Where they fail, they may have written some of it.
-/

namespace Rtl8812au.Ies

/-- What the three pointers point at. -/
structure SuiteVars where
  groupCipher : Nat
  pairwiseCipher : Nat
  is8021x : Nat
  deriving Repr, DecidableEq

section

-- the cipher at an address, the suite of 802.1X, and whether `is_8021x` is given
variable (suite : Nat → Nat) (suite1x : List UInt8) (want : Bool) (m : Mem)

/-- The loop over `count` pairwise suites. -/
def orSuites : Nat → Nat → Nat → Nat
  | 0, _, acc => acc
  | count + 1, pos, acc => orSuites count (pos + 4) (acc ||| suite pos)

/-- The test for 802.1X looks behind the count of the suites. -/
def parse8021x (pos : Nat) (left : Int) (v : SuiteVars) : SuiteVars :=
  if want && decide (6 ≤ left) then
    if m.read (pos + 2) 4 = suite1x then { v with is8021x := 1 } else v
  else v

/-- From the pairwise suites on: whether it is `_SUCCESS`, and the variables. -/
def parsePairwiseVars (pos : Nat) (left : Int) (v : SuiteVars) : Bool × SuiteVars :=
  if 2 ≤ left then
    let count := m.le16 pos
    let pos := pos + 2
    let left := left - 2
    if count = 0 ∨ left < count * 4 then (false, v)
    else
      let v := { v with pairwiseCipher := orSuites suite count pos v.pairwiseCipher }
      (true, parse8021x suite1x want m (pos + count * 4) (left - count * 4) v)
  else if left = 1 then (false, v)
  else (true, parse8021x suite1x want m pos left v)

/-- From the group suite on. -/
def parseSuiteVars (pos : Nat) (left : Int) (v : SuiteVars) : Bool × SuiteVars :=
  if 4 ≤ left then
    parsePairwiseVars suite suite1x want m (pos + 4) (left - 4) { v with groupCipher := suite pos }
  else if 0 < left then (false, v)
  else parsePairwiseVars suite suite1x want m pos left v

end

/-- `rtw_parse_wpa_ie`. -/
def rtwParseWpaIe (m : Mem) (wpaIe : Nat) (wpaIeLen : Int) (want : Bool) (v : SuiteVars) :
    Bool × SuiteVars :=
  if wpaIeLen ≤ 0 then (false, v)
  else if m wpaIe ≠ 0xdd ∨ m (wpaIe + 1) ≠ UInt8.ofInt (wpaIeLen - 2)
      ∨ m.read (wpaIe + 2) 4 ≠ [0x00, 0x50, 0xf2, 1] then (false, v)
  else parseSuiteVars (rtwGetWpaCipherSuite m) [0x00, 0x50, 0xf2, 1] want m (wpaIe + 8) (wpaIeLen - 8) v

/-- `rtw_parse_wpa2_ie`. -/
def rtwParseWpa2Ie (m : Mem) (rsnIe : Nat) (rsnIeLen : Int) (want : Bool) (v : SuiteVars) :
    Bool × SuiteVars :=
  if rsnIeLen ≤ 0 then (false, v)
  else if m rsnIe ≠ 0x30 ∨ m (rsnIe + 1) ≠ UInt8.ofInt (rsnIeLen - 2) then (false, v)
  else parseSuiteVars (rtwGetWpa2CipherSuite m) [0x00, 0x0f, 0xac, 0x01] want m (rsnIe + 4) (rsnIeLen - 4) v

end Rtl8812au.Ies
