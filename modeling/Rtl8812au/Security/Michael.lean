import Rtl8812au.Wifi

/-!
# The Michael MIC

`struct mic_data` and `rtw_secmicsetkey`, `rtw_secmicappend`, `rtw_secgetmic`,
`rtw_seccalctkipmic` of `core/rtw_security.c`.
-/

namespace Rtl8812au

/-- `struct mic_data`. -/
structure MicData where
  k0 : UInt32
  k1 : UInt32
  l : UInt32
  r : UInt32
  m : UInt32
  nBytesInM : Nat
  deriving DecidableEq

/-- `ROL32`. -/
def rol32 (a : UInt32) (n : UInt32) : UInt32 :=
  (a <<< n) ||| ((a >>> (32 - n)) &&& ((1 <<< n) - 1))

/-- `ROR32`. -/
def ror32 (a : UInt32) (n : UInt32) : UInt32 := rol32 a (32 - n)

/-- `secmicgetuint32`. -/
def secmicgetuint32 (p : Nat → UInt8) (a : Nat) : UInt32 :=
  (p a).toUInt32 ||| ((p (a + 1)).toUInt32 <<< 8) ||| ((p (a + 2)).toUInt32 <<< 16)
    ||| ((p (a + 3)).toUInt32 <<< 24)

/-- `secmicputuint32`. -/
def secmicputuint32 (v : UInt32) : List UInt8 :=
  [v.toUInt8, (v >>> 8).toUInt8, (v >>> 16).toUInt8, (v >>> 24).toUInt8]

/-- `secmicclear`. -/
def secmicclear (d : MicData) : MicData := { d with l := d.k0, r := d.k1, nBytesInM := 0, m := 0 }

/-- `rtw_secmicsetkey`. -/
def rtwSecmicsetkey (key : Nat → UInt8) : MicData :=
  secmicclear ⟨secmicgetuint32 key 0, secmicgetuint32 key 4, 0, 0, 0, 0⟩

/-- The block function that a full word goes through. -/
def micBlock (l r m : UInt32) : UInt32 × UInt32 :=
  let l := l ^^^ m
  let r := r ^^^ rol32 l 17
  let l := l + r
  let r := r ^^^ (((l &&& 0xff00ff00) >>> 8) ||| ((l &&& 0x00ff00ff) <<< 8))
  let l := l + r
  let r := r ^^^ rol32 l 3
  let l := l + r
  let r := r ^^^ ror32 l 2
  let l := l + r
  (l, r)

/-- `rtw_secmicappendbyte`. -/
def rtwSecmicappendbyte (d : MicData) (b : UInt8) : MicData :=
  let m := d.m ||| (b.toUInt32 <<< UInt32.ofNat (8 * d.nBytesInM))
  if 4 ≤ d.nBytesInM + 1 then
    let lr := micBlock d.l d.r m
    { d with l := lr.1, r := lr.2, m := 0, nBytesInM := 0 }
  else { d with m := m, nBytesInM := d.nBytesInM + 1 }

/-- `rtw_secmicappend`. -/
def rtwSecmicappend (d : MicData) (bs : List UInt8) : MicData := bs.foldl rtwSecmicappendbyte d

/-- The padding loop of `rtw_secgetmic`: at most three more zeros. -/
def micPad (d : MicData) : MicData :=
  (List.range 3).foldl (fun d _ => if d.nBytesInM = 0 then d else rtwSecmicappendbyte d 0) d

/-- `rtw_secgetmic`: the eight bytes. -/
def rtwSecgetmic (d : MicData) : List UInt8 :=
  let d := micPad (rtwSecmicappend d [0x5a, 0, 0, 0, 0])
  secmicputuint32 d.l ++ secmicputuint32 d.r

/-- `rtw_seccalctkipmic` over the frame header at `h` and `dataLen` bytes at `data`. -/
def rtwSeccalctkipmic (key : Nat → UInt8) (m : Mem) (h data dataLen : Nat) (pri : UInt8) :
    List UInt8 :=
  let d := rtwSecmicsetkey key
  let d :=
    if (m (h + 1)) &&& 1 != 0 then
      let d := rtwSecmicappend d (m.read (h + 16) 6)
      if (m (h + 1)) &&& 2 != 0 then rtwSecmicappend d (m.read (h + 24) 6)
      else rtwSecmicappend d (m.read (h + 10) 6)
    else
      let d := rtwSecmicappend d (m.read (h + 4) 6)
      if (m (h + 1)) &&& 2 != 0 then rtwSecmicappend d (m.read (h + 16) 6)
      else rtwSecmicappend d (m.read (h + 10) 6)
  let d := rtwSecmicappend d [pri, 0, 0, 0]
  rtwSecgetmic (rtwSecmicappend d (m.read data dataLen))

end Rtl8812au
