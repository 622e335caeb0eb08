import Rtl8812au.Ies.Walk
import Mathlib.Logic.Function.Basic

/-!
# Collecting security elements

`rtw_get_sec_ie` and `rtw_get_wapi_ie` of `core/rtw_ieee80211.c`. Both walk all elements behind the
fixed fields and keep the last one of each kind; the copy of an element is followed by a loop that
prints it, eight bytes at a time, with a counter of eight bits. The elements lie in a memory from
address 0 on, so what is compared or copied may lie behind them.
-/

namespace Rtl8812au.Ies

/-- `_TIMESTAMP_ + _BEACON_ITERVAL_ + _CAPABILITY_`. -/
abbrev fixedLen : Nat := 12

/-- An output: `*len` and the buffer the element is copied to. -/
structure SecOut where
  len : Nat
  ie : Mem

/-- Where a collection is: at the element `cnt`, or in the loop that prints it with `i`. -/
structure Collect (κ : Type) where
  cnt : Nat
  inner : Option (κ × UInt8)
  out : κ → SecOut

section

variable {κ : Type} [DecidableEq κ] (kindAt : Nat → Option κ) (m : Mem) (inLen : Nat)

/-- `in_ie[cnt+1]+2`. -/
def sizeAt (m : Mem) (cnt : Nat) : Nat := (m (cnt + 1)).toNat + 2

/-- Get next. -/
def Collect.advance (s : Collect κ) : Collect κ :=
  { s with cnt := (s.cnt + sizeAt m s.cnt) % 2 ^ 32, inner := none }

/-- The element is copied, and the loop that prints it begins. -/
def Collect.copy (s : Collect κ) (k : κ) : Collect κ :=
  { s with
    inner := some (k, 0)
    out := Function.update s.out k
      { s.out k with ie := (s.out k).ie.copy 0 m s.cnt (sizeAt m s.cnt) } }

/-- The length is reported. -/
def Collect.report (s : Collect κ) (k : κ) : Collect κ :=
  Collect.advance m { s with out := Function.update s.out k { s.out k with len := sizeAt m s.cnt } }

/-- One turn of either loop. -/
def collectTurn (s : Collect κ) : Outcome (Turn (Collect κ) (κ → SecOut)) :=
  match s.inner with
  | none =>
    if inLen ≤ s.cnt then .done (.stop s.out)
    else
      match kindAt s.cnt with
      | none => .done (.next (s.advance m))
      | some k => .done (.next (s.copy m k))
  | some (k, i) =>
    if i.toNat < sizeAt m s.cnt then .done (.next { s with inner := some (k, i + 8) })
    else .done (.next (s.report m k))

end

/-! ## WPA and RSN -/

inductive SecKind where
  | wpa | rsn
  deriving Repr, DecidableEq

/-- `_WPA2_IE_ID_`, `_WAPI_IE_`. -/
abbrev wpa2Ie : UInt8 := 48
abbrev wapiIe : UInt8 := 68

/-- `wpa_oui`. -/
def wpaOui : List UInt8 := [0x00, 0x50, 0xf2, 0x01]

/-- What `rtw_get_sec_ie` takes the element at `cnt` for. -/
def secKindAt (m : Mem) (cnt : Nat) : Option SecKind :=
  if m cnt = vendorIe ∧ m.read (cnt + 2) 4 = wpaOui then some .wpa
  else if m cnt = wpa2Ie then some .rsn
  else none

/-- `rtw_get_sec_ie`, with both buffers given, ends with these outputs and returns `ret`. -/
def RtwGetSecIe (m : Mem) (inLen : Nat) (out₀ out : SecKind → SecOut) (ret : Nat) : Prop :=
  Loop.Ends (collectTurn (secKindAt m) m inLen) ⟨fixedLen, none, out₀⟩ out
    ∧ ret = (out .rsn).len + (out .wpa).len

/-! ## WAPI -/

/-- `wapi_oui1`, `wapi_oui2`. -/
def wapiOui1 : List UInt8 := [0x00, 0x14, 0x72, 0x01]
def wapiOui2 : List UInt8 := [0x00, 0x14, 0x72, 0x02]

/-- What `rtw_get_wapi_ie` takes the element at `cnt` for. -/
def wapiKindAt (m : Mem) (cnt : Nat) : Option Unit :=
  if m cnt = wapiIe ∧ (m.read (cnt + 6) 4 = wapiOui1 ∨ m.read (cnt + 6) 4 = wapiOui2) then some ()
  else none

/-- `rtw_get_wapi_ie`, with both outputs given. -/
def RtwGetWapiIe (m : Mem) (inLen : Nat) (out₀ out : SecOut) (ret : Nat) : Prop :=
  (if inLen = 0 then out = { out₀ with len := 0 }
    else Loop.Ends (collectTurn (wapiKindAt m) m inLen)
      ⟨fixedLen, none, fun _ => { out₀ with len := 0 }⟩ fun _ => out)
    ∧ ret = if inLen = 0 then 0 else out.len

end Rtl8812au.Ies
