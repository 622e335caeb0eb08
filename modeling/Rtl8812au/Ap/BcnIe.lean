import Rtl8812au.Ap.Beacon

/-!
# Editing the elements of the beacon

`rtw_add_bcn_ie` and `rtw_remove_bcn_ie` of `core/rtw_ap.c`. Both move what is behind the place they
edit by way of a copy, for which `rtw_malloc` may not have the memory.
-/

namespace Rtl8812au

/-- The walk of `rtw_add_bcn_ie` at `i`, with `p` and `ielen` of the element visited last. It stops
behind the elements, at one with a higher identifier, or at one with the identifier itself. -/
def bcnWalk (m : Mem) (index : UInt8) (ieLength : Nat) :
    Nat → Nat → Option (Nat × Nat) → Option (Nat × Nat) × Bool
  | 0, _, last => (last, false)
  | fuel + 1, i, last =>
    if ieLength ≤ i then (last, false)
    else if index < m i then (last, false)
    else if m i = index then (some (i, (m (i + 1)).toNat), true)
    else bcnWalk m index ieLength fuel (i + ((m (i + 1)).toNat + 2)) (some (i, (m (i + 1)).toNat))

/-- Where the walk ends. An element takes at least two bytes, so `IELength` turns are enough. -/
def BssidEx.bcnPlace (b : BssidEx) (index : UInt8) : Option (Nat × Nat) × Bool :=
  bcnWalk b.ies index b.ieLength b.ieLength fixedIeLength none

/-- The remainder behind `old` bytes at `p`. -/
def BssidEx.remainder (b : BssidEx) (p old : Nat) : Nat := sub32 (sub32 b.ieLength p) old

/-- The remainder is copied to `dst` if it could be kept, and the length set. -/
def BssidEx.moveRemainder (b : BssidEx) (malloc : Bool) (dst : Nat) (kept : List UInt8) :
    Outcome BssidEx :=
  let ieLength := (dst + kept.length) % 2 ^ 32
  if 0 < kept.length ∧ malloc then
    if maxIeSz < dst + kept.length then .overrun
    else .done ⟨b.ies.write dst kept, ieLength⟩
  else .done ⟨b.ies, ieLength⟩

/-- `rtw_add_bcn_ie`, with `data` of `len` bytes. -/
def rtwAddBcnIe (malloc : Bool) (index : UInt8) (data : List UInt8) (b : BssidEx) : Outcome BssidEx :=
  match b.bcnPlace index with
  | (some (p, len + 1), bmatch) =>
    let premainder := p + (len + 1 + 2)
    let kept := b.ies.read premainder (b.remainder p (len + 1 + 2))
    let dst := if bmatch then p else premainder
    if maxIeSz < dst + (2 + data.length) then .overrun
    else
      BssidEx.moveRemainder
        { b with ies := b.ies.write dst (index :: UInt8.ofNat data.length :: data) }
        malloc (dst + (2 + data.length)) kept
  | _ => .done b

/-- `rtw_remove_bcn_ie`. -/
def rtwRemoveBcnIe (malloc : Bool) (index : UInt8) (b : BssidEx) : Outcome BssidEx :=
  match b.getIe index with
  | some (p, len + 1) =>
    b.moveRemainder malloc p (b.ies.read (p + (len + 1 + 2)) (b.remainder p (len + 1 + 2)))
  | _ => .done b

end Rtl8812au
