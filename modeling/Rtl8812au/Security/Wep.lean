import Rtl8812au.Wifi

/-!
# RC4 and CRC-32

`arcfour_init`, `arcfour_byte`, `arcfour_encrypt`, `crc32_init` and `getcrc32` of
`core/rtw_security.c`.
-/

namespace Rtl8812au

/-- `struct arc4context`. -/
structure Arc4Context where
  x : Nat
  y : Nat
  state : List UInt8

/-- One turn of the key schedule of `arcfour_init`, on the state, `stateindex` and
`keyindex`. -/
def arcfourInitStep (key : List UInt8) (keyLen : Nat) (s : List UInt8 × Nat × Nat)
    (counter : Nat) : List UInt8 × Nat × Nat :=
  let t := s.1.getD counter 0
  let stateindex := (s.2.1 + (key.getD s.2.2 0).toNat + t.toNat) % 256
  let u := s.1.getD stateindex 0
  ((s.1.set stateindex t).set counter u, stateindex,
    if keyLen ≤ s.2.2 + 1 then 0 else s.2.2 + 1)

/-- `arcfour_init`. -/
def arcfourInit (key : List UInt8) (keyLen : Nat) : Arc4Context where
  x := 0
  y := 0
  state := ((List.range 256).foldl (arcfourInitStep key keyLen)
    ((List.range 256).map UInt8.ofNat, 0, 0)).1

/-- `arcfour_byte`. -/
def arcfourByte (c : Arc4Context) : UInt8 × Arc4Context :=
  let x := (c.x + 1) % 256
  let sx := c.state.getD x 0
  let y := (sx.toNat + c.y) % 256
  let sy := c.state.getD y 0
  let state := (c.state.set y sx).set x sy
  (state.getD ((sx.toNat + sy.toNat) % 256) 0, ⟨x, y, state⟩)

/-- `arcfour_encrypt`: the bytes that go to `dest` for the bytes `src`. -/
def arcfourEncrypt (c : Arc4Context) : List UInt8 → List UInt8 × Arc4Context
  | [] => ([], c)
  | b :: src =>
    let r := arcfourByte c
    let s := arcfourEncrypt r.2 src
    ((b ^^^ r.1) :: s.1, s.2)

theorem length_arcfourEncrypt : ∀ (src : List UInt8) (c : Arc4Context),
    (arcfourEncrypt c src).1.length = src.length
  | [], _ => rfl
  | _ :: src, c => by
      rw [arcfourEncrypt]
      exact congrArg (· + 1) (length_arcfourEncrypt src _)

/-- The key stream does not depend on the bytes it is laid over, so the same key opens what it
has sealed. -/
theorem arcfourEncrypt_arcfourEncrypt : ∀ (src : List UInt8) (c : Arc4Context),
    (arcfourEncrypt c (arcfourEncrypt c src).1).1 = src
  | [], _ => rfl
  | b :: src, c => by
      rw [arcfourEncrypt, arcfourEncrypt]
      dsimp only
      rw [arcfourEncrypt_arcfourEncrypt src, UInt8.xor_assoc, UInt8.xor_self, UInt8.xor_zero]

/-- Two pieces under one key stream: the second goes on where the first ended. -/
theorem arcfourEncrypt_append : ∀ (p q : List UInt8) (c : Arc4Context),
    (arcfourEncrypt c (p ++ q)).1
      = (arcfourEncrypt c p).1 ++ (arcfourEncrypt (arcfourEncrypt c p).2 q).1
  | [], _, _ => rfl
  | b :: p, q, c => by
      rw [List.cons_append, arcfourEncrypt, arcfourEncrypt]
      exact congrArg (List.cons _) (arcfourEncrypt_append p q _)

/-- `crc32_reverseBit`. -/
def crc32ReverseBit (d : UInt8) : UInt8 :=
  let bit (v mask : UInt8) : UInt8 := v &&& mask
  bit (d <<< 7) 0x80 ||| bit (d <<< 5) 0x40 ||| bit (d <<< 3) 0x20 ||| bit (d <<< 1) 0x10
    ||| bit (d >>> 1) 0x08 ||| bit (d >>> 3) 0x04 ||| bit (d >>> 5) 0x02 ||| bit (d >>> 7) 0x01

/-- One shift of the register in `crc32_init`; `CRC32_POLY` is `0x04c11db7`. -/
def crc32Shift (c : UInt32) : UInt32 :=
  if c &&& 0x80000000 != 0 then (c <<< 1) ^^^ 0x04c11db7 else c <<< 1

/-- Entry `i` of `crc32_table` as `crc32_init` fills it: the register is read byte by
byte on a little-endian machine, each byte reversed and the order of bytes too. -/
def crc32TableEntry (i : UInt8) : UInt32 :=
  let c := (List.range 8).foldl (fun c _ => crc32Shift c)
    ((crc32ReverseBit i).toUInt32 <<< 24)
  (crc32ReverseBit (c >>> 24).toUInt8).toUInt32
    ||| ((crc32ReverseBit (c >>> 16).toUInt8).toUInt32 <<< 8)
    ||| ((crc32ReverseBit (c >>> 8).toUInt8).toUInt32 <<< 16)
    ||| ((crc32ReverseBit c.toUInt8).toUInt32 <<< 24)

/-- One byte of `getcrc32`. -/
def crc32Step (crc : UInt32) (b : UInt8) : UInt32 :=
  crc32TableEntry (crc.toUInt8 ^^^ b) ^^^ (crc >>> 8)

/-- `getcrc32`. -/
def getcrc32 (bs : List UInt8) : UInt32 := ~~~ (bs.foldl crc32Step 0xffffffff)

/-- The four bytes of a `u32` in memory. -/
def le32Bytes (v : UInt32) : List UInt8 :=
  [v.toUInt8, (v >>> 8).toUInt8, (v >>> 16).toUInt8, (v >>> 24).toUInt8]

@[simp] theorem length_le32Bytes (v : UInt32) : (le32Bytes v).length = 4 := rfl

example : getcrc32 [0x31, 0x32, 0x33, 0x34, 0x35, 0x36, 0x37, 0x38, 0x39] = 0xcbf43926 := by
  decide +kernel

end Rtl8812au
