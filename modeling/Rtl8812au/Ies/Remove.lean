import Rtl8812au.Ies.Walk

/-!
# Removing elements

`rtw_ies_remove_ie` of `core/rtw_ieee80211.c`. What is behind an element that matches is copied to a
buffer on the stack and from there over the element; then the search starts again where the element was.
-/

namespace Rtl8812au.Ies

/-- What the caller has in hand, with the value returned. -/
structure Removed where
  ies : List UInt8
  iesLen : Nat
  success : Bool
  deriving Repr, DecidableEq

/-- The loop's variables; `start` is an offset into `ies`. -/
structure RemoveState extends Removed where
  start : Nat
  searchLen : Nat

/-- `target_ie && target_ielen`. -/
def target : Option Found → Option (Nat × Nat)
  | some ⟨addr, some (len + 1), _⟩ => some (addr, len + 1)
  | _ => none

/-- The copy to `buf`, of `MAX_IE_SZ` bytes. -/
def bounce (bs : List UInt8) (i n : Nat) : Outcome (List UInt8) :=
  if n ≤ maxIe then memcpy bs i n else .overrun

/-- The copy back. -/
def overwrite (bs : List UInt8) (i : Nat) (buf : List UInt8) : Outcome (List UInt8) :=
  if i + buf.length ≤ bs.length then .done (bs.take i ++ (buf ++ bs.drop (i + buf.length)))
  else .overrun

/-- The element of `len` bytes at `addr` from `start` is removed. -/
def RemoveState.remove (s : RemoveState) (addr len : Nat) : Outcome RemoveState := do
  let remainLen := sub32 s.searchLen (addr + len)
  let buf ← bounce s.ies (s.start + addr + len) remainLen
  let ies ← overwrite s.ies (s.start + addr) buf
  pure ⟨⟨ies, sub32 s.iesLen len, true⟩, s.start + addr, remainLen⟩

/-- The loop comes from one state to the other. -/
inductive RemoveLoop (eid : UInt8) (oui : Option (List UInt8)) : RemoveState → RemoveState → Prop where
  | done {s : RemoveState} {r : Option Found}
      (h : RtwGetIeEx (s.ies.drop s.start) s.searchLen eid oui ⟨true, false⟩ r)
      (ht : target r = none) : RemoveLoop eid oui s s
  | again {s s' t : RemoveState} {r : Option Found} {addr len : Nat}
      (h : RtwGetIeEx (s.ies.drop s.start) s.searchLen eid oui ⟨true, false⟩ r)
      (ht : target r = some (addr, len)) (hr : s.remove addr len = .done s')
      (hrest : RemoveLoop eid oui s' t) : RemoveLoop eid oui s t

/-- `rtw_ies_remove_ie`, with the buffers given, ends so. -/
def RtwIesRemoveIe (ies : List UInt8) (iesLen offset : Nat) (eid : UInt8) (oui : Option (List UInt8))
    (r : Removed) : Prop :=
  if iesLen ≤ offset then r = ⟨ies, iesLen, false⟩
  else ∃ s, RemoveLoop eid oui ⟨⟨ies, iesLen, false⟩, offset, sub32 iesLen offset⟩ s ∧ r = s.toRemoved

end Rtl8812au.Ies
