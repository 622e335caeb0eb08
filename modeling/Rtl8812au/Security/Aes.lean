import Rtl8812au.Lib.BigEndian
import Rtl8812au.Lib.BlockMode
import Rtl8812au.Security.Ccmp

/-!
# The two AES-128 implementations

`core/rtw_security.c` has two of them: `aes128k128d` works on bytes and derives the next round key in
place, `rijndaelKeySetupEnc` and `rijndaelEncrypt` work on 32-bit words with one table and a key schedule
that is computed beforehand.
-/

namespace Rtl8812au.Aes

open BlockMode

/-! ## Byte by byte -/

/-- `sbox_table`. -/
def sboxTable : List UInt8 :=
  [0x63, 0x7c, 0x77, 0x7b, 0xf2, 0x6b, 0x6f, 0xc5, 0x30, 0x01, 0x67, 0x2b, 0xfe, 0xd7, 0xab, 0x76,
   0xca, 0x82, 0xc9, 0x7d, 0xfa, 0x59, 0x47, 0xf0, 0xad, 0xd4, 0xa2, 0xaf, 0x9c, 0xa4, 0x72, 0xc0,
   0xb7, 0xfd, 0x93, 0x26, 0x36, 0x3f, 0xf7, 0xcc, 0x34, 0xa5, 0xe5, 0xf1, 0x71, 0xd8, 0x31, 0x15,
   0x04, 0xc7, 0x23, 0xc3, 0x18, 0x96, 0x05, 0x9a, 0x07, 0x12, 0x80, 0xe2, 0xeb, 0x27, 0xb2, 0x75,
   0x09, 0x83, 0x2c, 0x1a, 0x1b, 0x6e, 0x5a, 0xa0, 0x52, 0x3b, 0xd6, 0xb3, 0x29, 0xe3, 0x2f, 0x84,
   0x53, 0xd1, 0x00, 0xed, 0x20, 0xfc, 0xb1, 0x5b, 0x6a, 0xcb, 0xbe, 0x39, 0x4a, 0x4c, 0x58, 0xcf,
   0xd0, 0xef, 0xaa, 0xfb, 0x43, 0x4d, 0x33, 0x85, 0x45, 0xf9, 0x02, 0x7f, 0x50, 0x3c, 0x9f, 0xa8,
   0x51, 0xa3, 0x40, 0x8f, 0x92, 0x9d, 0x38, 0xf5, 0xbc, 0xb6, 0xda, 0x21, 0x10, 0xff, 0xf3, 0xd2,
   0xcd, 0x0c, 0x13, 0xec, 0x5f, 0x97, 0x44, 0x17, 0xc4, 0xa7, 0x7e, 0x3d, 0x64, 0x5d, 0x19, 0x73,
   0x60, 0x81, 0x4f, 0xdc, 0x22, 0x2a, 0x90, 0x88, 0x46, 0xee, 0xb8, 0x14, 0xde, 0x5e, 0x0b, 0xdb,
   0xe0, 0x32, 0x3a, 0x0a, 0x49, 0x06, 0x24, 0x5c, 0xc2, 0xd3, 0xac, 0x62, 0x91, 0x95, 0xe4, 0x79,
   0xe7, 0xc8, 0x37, 0x6d, 0x8d, 0xd5, 0x4e, 0xa9, 0x6c, 0x56, 0xf4, 0xea, 0x65, 0x7a, 0xae, 0x08,
   0xba, 0x78, 0x25, 0x2e, 0x1c, 0xa6, 0xb4, 0xc6, 0xe8, 0xdd, 0x74, 0x1f, 0x4b, 0xbd, 0x8b, 0x8a,
   0x70, 0x3e, 0xb5, 0x66, 0x48, 0x03, 0xf6, 0x0e, 0x61, 0x35, 0x57, 0xb9, 0x86, 0xc1, 0x1d, 0x9e,
   0xe1, 0xf8, 0x98, 0x11, 0x69, 0xd9, 0x8e, 0x94, 0x9b, 0x1e, 0x87, 0xe9, 0xce, 0x55, 0x28, 0xdf,
   0x8c, 0xa1, 0x89, 0x0d, 0xbf, 0xe6, 0x42, 0x68, 0x41, 0x99, 0x2d, 0x0f, 0xb0, 0x54, 0xbb, 0x16]

/-- `sbox`. -/
def sbox (a : UInt8) : UInt8 := sboxTable.getD a.toNat 0

/-- The four bytes at `4 * j`. -/
def column (b : Block) (j : Fin 4) : Bytes4 :=
  ⟨b ⟨4 * j, by omega⟩, b ⟨4 * j + 1, by omega⟩, b ⟨4 * j + 2, by omega⟩, b ⟨4 * j + 3, by omega⟩⟩

/-- The byte at `i`. -/
def byteAt (c : Bytes4) (i : Nat) : UInt8 :=
  if i = 0 then c.b0 else if i = 1 then c.b1 else if i = 2 then c.b2 else c.b3

/-- Sixteen bytes, four at a time. -/
def ofColumns (c : Fin 4 → Bytes4) : Block := fun i => byteAt (c ⟨i / 4, by omega⟩) (i % 4)

/-- `rcon_table` of `next_key`. -/
def rconTable : List UInt8 :=
  [0x01, 0x02, 0x04, 0x08, 0x10, 0x20, 0x40, 0x80, 0x1b, 0x36, 0x36, 0x36]

/-- `next_key`, which changes the key in place. -/
def nextKey (key : AesKey) (round : Nat) : AesKey :=
  let sboxKey : Bytes4 := ⟨sbox (key 13), sbox (key 14), sbox (key 15), sbox (key 12)⟩
  let rcon := rconTable.getD round 0
  let k0 := (column key 0).xor sboxKey
  let k0 := { k0 with b0 := k0.b0 ^^^ rcon }
  let k1 := (column key 1).xor k0
  let k2 := (column key 2).xor k1
  let k3 := (column key 3).xor k2
  ofColumns fun j => if j = 0 then k0 else if j = 1 then k1 else if j = 2 then k2 else k3

/-- `byte_sub`. -/
def byteSub (b : Block) : Block := fun i => sbox (b i)

/-- Where each byte of the output of `shift_row` comes from. -/
def shiftRowFrom : List (Fin 16) := [0, 5, 10, 15, 4, 9, 14, 3, 8, 13, 2, 7, 12, 1, 6, 11]

/-- `shift_row`. -/
def shiftRow (b : Block) : Block := fun i => b (shiftRowFrom.getD i 0)

/-- `add1b` for one byte. -/
def add1b (x : UInt8) : UInt8 := if x &&& 0x80 = 0x80 then 0x1b else 0x00

/-- One step of the loop that shifts `andf7` to the left: a bit is carried over from the byte below. -/
def shiftCarry (x below : UInt8) : UInt8 :=
  if below &&& 0x80 = 0x80 then (x <<< 1) ||| 0x01 else x <<< 1

/-- `mix_column`. -/
def mixColumn (inp : Bytes4) : Bytes4 :=
  let add1b : Bytes4 := ⟨add1b inp.b0, add1b inp.b1, add1b inp.b2, add1b inp.b3⟩
  let swapHalfs : Bytes4 := ⟨inp.b2, inp.b3, inp.b0, inp.b1⟩
  let rotl : Bytes4 := ⟨inp.b3, inp.b0, inp.b1, inp.b2⟩
  let andf7 : Bytes4 := ⟨inp.b0 &&& 0x7f, inp.b1 &&& 0x7f, inp.b2 &&& 0x7f, inp.b3 &&& 0x7f⟩
  let andf7 : Bytes4 :=
    ⟨(andf7.b0 <<< 1) &&& 0xfe, shiftCarry andf7.b1 andf7.b0, shiftCarry andf7.b2 andf7.b1,
      shiftCarry andf7.b3 andf7.b2⟩
  let add1bf7 := add1b.xor andf7
  let rotr := inp.xor add1bf7
  let rotr : Bytes4 := ⟨rotr.b1, rotr.b2, rotr.b3, rotr.b0⟩
  let temp := add1bf7.xor rotr
  let tempb := swapHalfs.xor rotl
  temp.xor tempb

/-- The four calls of `mix_column`. -/
def mixColumns (b : Block) : Block := ofColumns fun j => mixColumn (column b j)

/-- One turn of the loop of `aes128k128d`: the round key and `ciphertext`. -/
def aesTurn (data : Block) (s : AesKey × Block) (round : Nat) : AesKey × Block :=
  if round = 0 then (nextKey s.1 round, bitwiseXor s.1 data)
  else if round = 10 then (s.1, bitwiseXor (shiftRow (byteSub s.2)) s.1)
  else (nextKey s.1 round, bitwiseXor (mixColumns (shiftRow (byteSub s.2))) s.1)

/-- `aes128k128d`; `ciphertext` is written before it is read. -/
def aes128k128d (key : AesKey) (data : Block) : Block :=
  ((List.range 11).foldl (aesTurn data) (key, fun _ => 0)).2

/-! ## Word by word -/

/-- `Te0`. -/
def te0Table : List UInt32 :=
  [0xc66363a5, 0xf87c7c84, 0xee777799, 0xf67b7b8d, 0xfff2f20d, 0xd66b6bbd, 0xde6f6fb1, 0x91c5c554,
   0x60303050, 0x02010103, 0xce6767a9, 0x562b2b7d, 0xe7fefe19, 0xb5d7d762, 0x4dababe6, 0xec76769a,
   0x8fcaca45, 0x1f82829d, 0x89c9c940, 0xfa7d7d87, 0xeffafa15, 0xb25959eb, 0x8e4747c9, 0xfbf0f00b,
   0x41adadec, 0xb3d4d467, 0x5fa2a2fd, 0x45afafea, 0x239c9cbf, 0x53a4a4f7, 0xe4727296, 0x9bc0c05b,
   0x75b7b7c2, 0xe1fdfd1c, 0x3d9393ae, 0x4c26266a, 0x6c36365a, 0x7e3f3f41, 0xf5f7f702, 0x83cccc4f,
   0x6834345c, 0x51a5a5f4, 0xd1e5e534, 0xf9f1f108, 0xe2717193, 0xabd8d873, 0x62313153, 0x2a15153f,
   0x0804040c, 0x95c7c752, 0x46232365, 0x9dc3c35e, 0x30181828, 0x379696a1, 0x0a05050f, 0x2f9a9ab5,
   0x0e070709, 0x24121236, 0x1b80809b, 0xdfe2e23d, 0xcdebeb26, 0x4e272769, 0x7fb2b2cd, 0xea75759f,
   0x1209091b, 0x1d83839e, 0x582c2c74, 0x341a1a2e, 0x361b1b2d, 0xdc6e6eb2, 0xb45a5aee, 0x5ba0a0fb,
   0xa45252f6, 0x763b3b4d, 0xb7d6d661, 0x7db3b3ce, 0x5229297b, 0xdde3e33e, 0x5e2f2f71, 0x13848497,
   0xa65353f5, 0xb9d1d168, 0x00000000, 0xc1eded2c, 0x40202060, 0xe3fcfc1f, 0x79b1b1c8, 0xb65b5bed,
   0xd46a6abe, 0x8dcbcb46, 0x67bebed9, 0x7239394b, 0x944a4ade, 0x984c4cd4, 0xb05858e8, 0x85cfcf4a,
   0xbbd0d06b, 0xc5efef2a, 0x4faaaae5, 0xedfbfb16, 0x864343c5, 0x9a4d4dd7, 0x66333355, 0x11858594,
   0x8a4545cf, 0xe9f9f910, 0x04020206, 0xfe7f7f81, 0xa05050f0, 0x783c3c44, 0x259f9fba, 0x4ba8a8e3,
   0xa25151f3, 0x5da3a3fe, 0x804040c0, 0x058f8f8a, 0x3f9292ad, 0x219d9dbc, 0x70383848, 0xf1f5f504,
   0x63bcbcdf, 0x77b6b6c1, 0xafdada75, 0x42212163, 0x20101030, 0xe5ffff1a, 0xfdf3f30e, 0xbfd2d26d,
   0x81cdcd4c, 0x180c0c14, 0x26131335, 0xc3ecec2f, 0xbe5f5fe1, 0x359797a2, 0x884444cc, 0x2e171739,
   0x93c4c457, 0x55a7a7f2, 0xfc7e7e82, 0x7a3d3d47, 0xc86464ac, 0xba5d5de7, 0x3219192b, 0xe6737395,
   0xc06060a0, 0x19818198, 0x9e4f4fd1, 0xa3dcdc7f, 0x44222266, 0x542a2a7e, 0x3b9090ab, 0x0b888883,
   0x8c4646ca, 0xc7eeee29, 0x6bb8b8d3, 0x2814143c, 0xa7dede79, 0xbc5e5ee2, 0x160b0b1d, 0xaddbdb76,
   0xdbe0e03b, 0x64323256, 0x743a3a4e, 0x140a0a1e, 0x924949db, 0x0c06060a, 0x4824246c, 0xb85c5ce4,
   0x9fc2c25d, 0xbdd3d36e, 0x43acacef, 0xc46262a6, 0x399191a8, 0x319595a4, 0xd3e4e437, 0xf279798b,
   0xd5e7e732, 0x8bc8c843, 0x6e373759, 0xda6d6db7, 0x018d8d8c, 0xb1d5d564, 0x9c4e4ed2, 0x49a9a9e0,
   0xd86c6cb4, 0xac5656fa, 0xf3f4f407, 0xcfeaea25, 0xca6565af, 0xf47a7a8e, 0x47aeaee9, 0x10080818,
   0x6fbabad5, 0xf0787888, 0x4a25256f, 0x5c2e2e72, 0x381c1c24, 0x57a6a6f1, 0x73b4b4c7, 0x97c6c651,
   0xcbe8e823, 0xa1dddd7c, 0xe874749c, 0x3e1f1f21, 0x964b4bdd, 0x61bdbddc, 0x0d8b8b86, 0x0f8a8a85,
   0xe0707090, 0x7c3e3e42, 0x71b5b5c4, 0xcc6666aa, 0x904848d8, 0x06030305, 0xf7f6f601, 0x1c0e0e12,
   0xc26161a3, 0x6a35355f, 0xae5757f9, 0x69b9b9d0, 0x17868691, 0x99c1c158, 0x3a1d1d27, 0x279e9eb9,
   0xd9e1e138, 0xebf8f813, 0x2b9898b3, 0x22111133, 0xd26969bb, 0xa9d9d970, 0x078e8e89, 0x339494a7,
   0x2d9b9bb6, 0x3c1e1e22, 0x15878792, 0xc9e9e920, 0x87cece49, 0xaa5555ff, 0x50282878, 0xa5dfdf7a,
   0x038c8c8f, 0x59a1a1f8, 0x09898980, 0x1a0d0d17, 0x65bfbfda, 0xd7e6e631, 0x844242c6, 0xd06868b8,
   0x824141c3, 0x299999b0, 0x5a2d2d77, 0x1e0f0f11, 0x7bb0b0cb, 0xa85454fc, 0x6dbbbbd6, 0x2c16163a]

/-- `Te0[i & 0xff]`. -/
def te0At (i : UInt32) : UInt32 := te0Table.getD (i &&& 0xff).toNat 0

/-- `TE0` to `TE3`. -/
def te0 (i : UInt32) : UInt32 := te0At (i >>> 24)
def te1 (i : UInt32) : UInt32 := Bytes4.rotr (te0At (i >>> 16)) 8
def te2 (i : UInt32) : UInt32 := Bytes4.rotr (te0At (i >>> 8)) 16
def te3 (i : UInt32) : UInt32 := Bytes4.rotr (te0At i) 24

/-- `TE41` to `TE44`. -/
def te41 (i : UInt32) : UInt32 := (te0At (i >>> 24) <<< 8) &&& 0xff000000
def te42 (i : UInt32) : UInt32 := te0At (i >>> 16) &&& 0x00ff0000
def te43 (i : UInt32) : UInt32 := te0At (i >>> 8) &&& 0x0000ff00
def te44 (i : UInt32) : UInt32 := (te0At i >>> 8) &&& 0x000000ff

/-- `TE421`, `TE432`, `TE443` and `TE414`. -/
def te421 (i : UInt32) : UInt32 := (te0At (i >>> 16) <<< 8) &&& 0xff000000
def te432 (i : UInt32) : UInt32 := te0At (i >>> 8) &&& 0x00ff0000
def te443 (i : UInt32) : UInt32 := te0At i &&& 0x0000ff00
def te414 (i : UInt32) : UInt32 := (te0At (i >>> 24) >>> 8) &&& 0x000000ff

/-- `rcons`. -/
def rcons : List UInt8 := [0x01, 0x02, 0x04, 0x08, 0x10, 0x20, 0x40, 0x80, 0x1B, 0x36]

/-- `RCON`. -/
def rcon (i : Nat) : UInt32 := (rcons.getD i 0).toUInt32 <<< 24

/-- Four words: a state, or what stands at `rk` in the key schedule. -/
@[ext] structure Words where
  w0 : UInt32
  w1 : UInt32
  w2 : UInt32
  w3 : UInt32
  deriving Repr, DecidableEq

/-- `GETU32` at 0, 4, 8 and 12. -/
def getWords (b : Block) : Words :=
  ⟨(column b 0).word, (column b 1).word, (column b 2).word, (column b 3).word⟩

/-- `PUTU32` at 0, 4, 8 and 12. -/
def putWords (s : Words) : Block :=
  ofColumns fun j => Bytes4.ofWord (if j = 0 then s.w0 else if j = 1 then s.w1 else if j = 2 then s.w2 else s.w3)

/-- The four words at `4 * k` of the schedule. -/
def keyWords (rk : List UInt32) (k : Nat) : Words :=
  ⟨rk.getD (4 * k) 0, rk.getD (4 * k + 1) 0, rk.getD (4 * k + 2) 0, rk.getD (4 * k + 3) 0⟩

/-- One turn of the loop of `rijndaelKeySetupEnc`, where `rk` has moved on by `4 * i`. -/
def keySetupTurn (rk : List UInt32) (i : Nat) : List UInt32 :=
  let w := keyWords rk i
  let temp := w.w3
  let w4 := w.w0 ^^^ te421 temp ^^^ te432 temp ^^^ te443 temp ^^^ te414 temp ^^^ rcon i
  let w5 := w.w1 ^^^ w4
  let w6 := w.w2 ^^^ w5
  let w7 := w.w3 ^^^ w6
  rk ++ [w4, w5, w6, w7]

/-- `rijndaelKeySetupEnc`: the 44 words. -/
def rijndaelKeySetupEnc (cipherKey : AesKey) : List UInt32 :=
  let w := getWords cipherKey
  (List.range 10).foldl keySetupTurn [w.w0, w.w1, w.w2, w.w3]

/-- `ROUND`: the state `s` with the words `k` of the schedule. -/
def roundWith (k s : Words) : Words where
  w0 := te0 s.w0 ^^^ te1 s.w1 ^^^ te2 s.w2 ^^^ te3 s.w3 ^^^ k.w0
  w1 := te0 s.w1 ^^^ te1 s.w2 ^^^ te2 s.w3 ^^^ te3 s.w0 ^^^ k.w1
  w2 := te0 s.w2 ^^^ te1 s.w3 ^^^ te2 s.w0 ^^^ te3 s.w1 ^^^ k.w2
  w3 := te0 s.w3 ^^^ te1 s.w0 ^^^ te2 s.w1 ^^^ te3 s.w2 ^^^ k.w3

/-- The last round. -/
def lastRound (k t : Words) : Words where
  w0 := te41 t.w0 ^^^ te42 t.w1 ^^^ te43 t.w2 ^^^ te44 t.w3 ^^^ k.w0
  w1 := te41 t.w1 ^^^ te42 t.w2 ^^^ te43 t.w3 ^^^ te44 t.w0 ^^^ k.w1
  w2 := te41 t.w2 ^^^ te42 t.w3 ^^^ te43 t.w0 ^^^ te44 t.w1 ^^^ k.w2
  w3 := te41 t.w3 ^^^ te42 t.w0 ^^^ te43 t.w1 ^^^ te44 t.w2 ^^^ k.w3

/-- The loop of `rijndaelEncrypt` with `r` turns to go and `rk` at `4 * p`: two rounds in each turn, but
only the first of them in the last. -/
def encryptLoop (rk : List UInt32) : Nat → Nat → Words → Words × Nat
  | 0, p, s => (s, p)
  | r + 1, p, s =>
    let t := roundWith (keyWords rk (p + 1)) s
    let p := p + 2
    if r = 0 then (t, p) else encryptLoop rk r p (roundWith (keyWords rk p) t)

/-- `rijndaelEncrypt`; `Nr >> 1` is 5. -/
def rijndaelEncrypt (rk : List UInt32) (pt : Block) : Block :=
  let s := getWords pt
  let k := keyWords rk 0
  let t := encryptLoop rk 5 0 ⟨s.w0 ^^^ k.w0, s.w1 ^^^ k.w1, s.w2 ^^^ k.w2, s.w3 ^^^ k.w3⟩
  putWords (lastRound (keyWords rk t.2) t.1)

end Rtl8812au.Aes
