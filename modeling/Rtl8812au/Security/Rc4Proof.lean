import Rtl8812au.Recv.Decrypt
import Rtl8812au.Xmit.CoalesceProof

/-!
# What WEP and TKIP seal, they open

The sender encrypts the payload and then the checksum, in two calls of `arcfour_encrypt` on
one context; the receiver takes both in one call. The key stream does not depend on what it
is laid over, so the two calls write what one call would have written, and the one call of
the receiver takes it off again. The IV that the key is made from stands in front of the
payload, where neither side writes.
-/

namespace Rtl8812au

/-! ## One frame -/

/-- The payload of `n` bytes and the encrypted checksum, as `rc4Seal` leaves them, are what
one call over both writes. -/
theorem read_rc4Seal (key : List UInt8) (m : Mem) (payload n : Nat) :
    (rc4Seal key m payload n).read payload (n + 4)
      = (arcfourEncrypt (arcfourInit key key.length)
          (m.read payload n ++ le32Bytes (getcrc32 (m.read payload n)))).1 := by
  have hpay : (arcfourEncrypt (arcfourInit key key.length) (m.read payload n)).1.length = n := by
    rw [length_arcfourEncrypt, Mem.length_read]
  have hicv : (arcfourEncrypt (arcfourEncrypt (arcfourInit key key.length) (m.read payload n)).2
      (le32Bytes (getcrc32 (m.read payload n)))).1.length = 4 := by
    rw [length_arcfourEncrypt, length_le32Bytes]
  have hself := Mem.read_write_self m payload
    (arcfourEncrypt (arcfourInit key key.length) (m.read payload n)).1
  rw [hpay] at hself
  unfold rc4Seal
  dsimp only
  rw [Mem.read_write_append _ hicv, hself, arcfourEncrypt_append]

/-- **The receiver's one call** brings the payload and the checksum back. -/
theorem rc4Open_rc4Seal {key : List UInt8} {m : Mem} {p n : Nat} {f : RecvFrame}
    (h : f.buf.read (payloadAt f) (n + 4) = (rc4Seal key m p n).read p (n + 4)) :
    (rc4Open key f (n + 4)).buf.read (payloadAt f) (n + 4)
      = m.read p n ++ le32Bytes (getcrc32 (m.read p n)) := by
  have hlen : (m.read p n ++ le32Bytes (getcrc32 (m.read p n))).length = n + 4 := by
    rw [List.length_append, Mem.length_read, length_le32Bytes]
  have hself := Mem.read_write_self f.buf (payloadAt f)
    (m.read p n ++ le32Bytes (getcrc32 (m.read p n)))
  rw [hlen] at hself
  unfold rc4Open
  dsimp only
  rw [h, read_rc4Seal, arcfourEncrypt_arcfourEncrypt, hself]

/-- What stands in front of the payload stays, on either side. -/
theorem rc4Open_below {key : List UInt8} {f : RecvFrame} {n k : Nat} (h : k < payloadAt f) :
    (rc4Open key f n).buf k = f.buf k := Mem.write_of_lt h

/-! ## A packet in one fragment -/

/-- A packet laid out in one fragment for cipher `c`, with `n` bytes behind its IV. A size
is a `sint`. -/
structure OneFragment (x : XmitFrame) (c : Cipher) (n : Nat) : Prop where
  buf : x.bufAddr ≠ 0
  encrypt : x.attrib.encrypt = c
  ivLen : x.attrib.ivLen = c.ivLen
  icvLen : x.attrib.icvLen = c.icvLen
  sole : x.attrib.nrFrags = 1
  size : x.attrib.lastTxcmdsz = x.attrib.hdrlen + c.ivLen + n + c.icvLen
  small : x.attrib.lastTxcmdsz < 2 ^ 31

/-- The frame `f` is what went on the air of `x`, with the header length, the cipher and the
transmitter that validation reads from it. -/
structure Arrives (x : XmitFrame) (f : RecvFrame) : Prop where
  bytes : f.bytes = x.airBytes
  hdrlen : f.attrib.hdrlen = x.attrib.hdrlen
  encrypt : f.attrib.encrypt = x.attrib.encrypt
  ivLen : f.attrib.ivLen = x.attrib.ivLen
  ta : f.attrib.ta = x.attrib.ta

/-- Decryption has left the plain frame: the header and the IV, the payload `x` had before
it was encrypted, and behind it the checksum of that. -/
structure Restored (x : XmitFrame) (n : Nat) (f : RecvFrame) : Prop where
  header : f.buf.read f.rxData (x.attrib.hdrlen + x.attrib.ivLen)
    = x.mem.read x.firstStart (x.attrib.hdrlen + x.attrib.ivLen)
  payload : f.buf.read (payloadAt f) n
    = x.mem.read (x.firstStart + x.attrib.hdrlen + x.attrib.ivLen) n
  icv : f.buf.read (payloadAt f + n) 4
    = le32Bytes (getcrc32 (x.mem.read (x.firstStart + x.attrib.hdrlen + x.attrib.ivLen) n))

section

variable {x : XmitFrame} {c : Cipher} {n : Nat} {f : RecvFrame}

/-- The loop over the fragments takes one turn, over the payload. -/
theorem OneFragment.walk (h : OneFragment x c n) (fragLen : Nat) :
    x.walk fragLen = [(x.firstStart, (n : Int))] := by
  have hsize := h.size
  have hiv := h.ivLen
  have hicv := h.icvLen
  unfold XmitFrame.walk
  rw [h.sole, fragWalk]
  refine congrArg (fun l => [(_, l)]) ?_
  omega

theorem OneFragment.toU32 (h : OneFragment x c n) : toU32 (n : Int) = n := by
  have hsize := h.size
  have hsmall := h.small
  rw [toU32_of_nonneg (by omega) (by omega)]
  rfl

/-- Where the payload stands. -/
abbrev XmitFrame.payloadStart (x : XmitFrame) : Nat :=
  x.firstStart + x.attrib.hdrlen + x.attrib.ivLen

/-- The frame with its payload sealed under `key`. -/
def XmitFrame.sealed (x : XmitFrame) (key : List UInt8) (n : Nat) : XmitFrame :=
  { x with mem := rc4Seal key x.mem x.payloadStart n }

/-- What arrives of a sealed frame: the header and the IV as they were, and the payload
with its checksum under the key. -/
theorem Arrives.parts {key : List UInt8} (h : OneFragment x c n) (hc : c.icvLen = 4)
    (ha : Arrives (x.sealed key n) f) :
    decryptLength f = ((n + 4 : Nat) : Int)
      ∧ (∀ i < x.attrib.hdrlen + x.attrib.ivLen, f.buf (f.rxData + i) = x.mem (x.firstStart + i))
      ∧ f.buf.read (payloadAt f) (n + 4)
        = (rc4Seal key x.mem x.payloadStart n).read x.payloadStart (n + 4) := by
  have hsize := h.size
  have hhdr : f.attrib.hdrlen = x.attrib.hdrlen := ha.hdrlen
  have hiv : f.attrib.ivLen = x.attrib.ivLen := ha.ivLen
  have hivc := h.ivLen
  have hbytes : f.buf.read f.rxData f.len
      = (rc4Seal key x.mem x.payloadStart n).read x.firstStart x.attrib.lastTxcmdsz := ha.bytes
  have hlen : f.len = x.attrib.hdrlen + x.attrib.ivLen + (n + 4) := by
    have hl := congrArg List.length hbytes
    rw [Mem.length_read, Mem.length_read] at hl
    omega
  have htx : x.attrib.lastTxcmdsz = x.attrib.hdrlen + x.attrib.ivLen + (n + 4) := by omega
  rw [hlen, htx, Mem.read_add _ _ (x.attrib.hdrlen + x.attrib.ivLen) (n + 4),
    Mem.read_add _ _ (x.attrib.hdrlen + x.attrib.ivLen) (n + 4)] at hbytes
  obtain ⟨hfront, hback⟩ := List.append_inj hbytes (by rw [Mem.length_read, Mem.length_read])
  refine ⟨?_, fun i hi => ?_, ?_⟩
  · unfold decryptLength
    omega
  · have hat : (f.buf.read f.rxData (x.attrib.hdrlen + x.attrib.ivLen))[i]? = _ :=
      congrArg (fun l : List UInt8 => l[i]?) hfront
    rw [Mem.getElem?_read _ hi, Mem.getElem?_read _ hi] at hat
    rw [Option.some.inj hat]
    exact rc4Seal_outside (Or.inl (by unfold XmitFrame.payloadStart; omega))
  · have hrx : payloadAt f = f.rxData + (x.attrib.hdrlen + x.attrib.ivLen) := by
      unfold payloadAt
      omega
    have htxAt : x.payloadStart = x.firstStart + (x.attrib.hdrlen + x.attrib.ivLen) :=
      Nat.add_assoc _ _ _
    rw [hrx, hback, ← htxAt]

/-- **Opened with the key it was sealed with**, the frame is what it was. -/
theorem Arrives.restored {key : List UInt8} (h : OneFragment x c n) (hc : c.icvLen = 4)
    (ha : Arrives (x.sealed key n) f) : Restored x n (rc4Open key f (n + 4)) := by
  obtain ⟨-, hfront, hback⟩ := ha.parts h hc
  have hhdr : f.attrib.hdrlen = x.attrib.hdrlen := ha.hdrlen
  have hiv : f.attrib.ivLen = x.attrib.ivLen := ha.ivLen
  have hopen := rc4Open_rc4Seal hback
  rw [Mem.read_add] at hopen
  obtain ⟨hpay, hicv⟩ := List.append_inj hopen (by rw [Mem.length_read, Mem.length_read])
  refine ⟨List.map_congr_left fun i hi => ?_, hpay, hicv⟩
  have hi' := List.mem_range.mp hi
  show (rc4Open key f (n + 4)).buf (f.rxData + i) = _
  rw [rc4Open_below (by unfold payloadAt; omega), hfront i hi']

/-- Its checksum is right, which is what `rtw_tkip_decrypt` returns. -/
theorem Restored.icvRight {g : RecvFrame} (h : Restored x n g) : icvRight g (n + 4) = true := by
  have hsub : n + 4 - 4 = n := Nat.add_sub_cancel n 4
  have hat : payloadAt g + (n + 4) - 4 = payloadAt g + n := by omega
  unfold Rtl8812au.icvRight
  rw [hsub, hat, h.payload, h.icv]
  exact beq_self_eq_true _

end

/-! ## The key on either side -/

/-- The RC4 key is made from the eight bytes of the IV, wherever they stand. -/
theorem rc4Key_congr {tk : Tkip.Key} {ta : MacAddr} {m m' : Mem} {p q : Nat}
    (h : ∀ i < 8, m (p + i) = m' (q + i)) : Tkip.rc4Key tk ta m p = Tkip.rc4Key tk ta m' q := by
  have hpn : Tkip.getTkipPn m p = Tkip.getTkipPn m' q := by
    have h0 := h 0 (by omega)
    rw [Nat.add_zero, Nat.add_zero] at h0
    unfold Tkip.getTkipPn
    rw [h0, h 2 (by omega), h 4 (by omega), h 5 (by omega), h 6 (by omega), h 7 (by omega)]
  unfold Tkip.rc4Key
  rw [hpn]

/-- The receiver has the temporal key `key` for the frame: as the key of the station it is
from, or as the installed group key of its index. -/
structure HoldsKey (sec : SecurityPriv) (stainfo : Option StaInfo) (f : RecvFrame)
    (key : Keytype) : Prop where
  key : ∃ psta, stainfo = some psta ∧ rxKey sec psta f = key
  installed : f.attrib.ra.isMcast = true → sec.binstallGrpkey = true

/-- The bytes of a WEP key. -/
def wepKeyBytes (sec : SecurityPriv) (keyindex : Nat) : List UInt8 :=
  Mem.read (sec.dot11DefKey keyindex).skey 0 (sec.dot11DefKeylen keyindex)

section

variable {fragLen n : Nat} {sec rsec : SecurityPriv} {x : XmitFrame} {f : RecvFrame}

theorem rtwTkipEncrypt_sealed (h : OneFragment x .tkip n) :
    rtwTkipEncrypt fragLen sec x = x.sealed (Tkip.rc4Key (txKey sec x.attrib) x.attrib.ta x.mem
      (x.firstStart + x.attrib.hdrlen)) n := by
  have hat : x.firstStart + x.attrib.ivLen + x.attrib.hdrlen = x.payloadStart :=
    Nat.add_right_comm _ _ _
  unfold rtwTkipEncrypt XmitFrame.sealed
  rw [h.walk]
  dsimp only [List.foldl_cons, List.foldl_nil]
  rw [h.toU32, hat]

theorem rtwWepEncrypt_sealed {c : Cipher} (h : OneFragment x c n) :
    rtwWepEncrypt fragLen sec x = x.sealed (x.mem.read (x.firstStart + x.attrib.hdrlen) 3
      ++ wepKeyBytes sec sec.dot11PrivacyKeyIndex) n := by
  have hat : x.firstStart + x.attrib.ivLen + x.attrib.hdrlen = x.payloadStart :=
    Nat.add_right_comm _ _ _
  unfold rtwWepEncrypt XmitFrame.sealed
  rw [h.walk]
  dsimp only [List.foldl_cons, List.foldl_nil]
  rw [h.toU32, hat]
  rfl

/-- TKIP: the receiver makes the same RC4 key from the IV. -/
theorem tkip_restored {stainfo : Option StaInfo} (h : OneFragment x .tkip n)
    (ha : Arrives (rtwTkipEncrypt fragLen sec x) f)
    (hk : HoldsKey rsec stainfo f (txKey sec x.attrib)) :
    ∃ g, rtwTkipDecrypt rsec stainfo f = .done (g, true) ∧ Restored x n g := by
  rw [rtwTkipEncrypt_sealed h] at ha
  obtain ⟨hlen, hfront, -⟩ := ha.parts h rfl
  obtain ⟨psta, hsta, hkey⟩ := hk.key
  have hhdr : f.attrib.hdrlen = x.attrib.hdrlen := ha.hdrlen
  have hta : f.attrib.ta = x.attrib.ta := ha.ta
  have hivLen : x.attrib.ivLen = 8 := h.ivLen
  have hrc4 : Tkip.rc4Key (rxKey rsec psta f) f.attrib.ta f.buf (f.rxData + f.attrib.hdrlen)
      = Tkip.rc4Key (txKey sec x.attrib) x.attrib.ta x.mem (x.firstStart + x.attrib.hdrlen) := by
    rw [hkey, hta, hhdr]
    refine rc4Key_congr fun i hi => ?_
    rw [Nat.add_assoc, Nat.add_assoc, hfront _ (by omega)]
  have hinst : ¬ (f.attrib.ra.isMcast && !rsec.binstallGrpkey) = true := by
    cases hra : f.attrib.ra.isMcast with
    | false => exact Bool.false_ne_true
    | true =>
        rw [hk.installed hra]
        exact Bool.false_ne_true
  have hres := ha.restored h rfl
  refine ⟨_, ?_, hres⟩
  unfold rtwTkipDecrypt
  rw [hsta]
  dsimp only
  rw [if_neg hinst, hlen, if_neg (by omega), Int.toNat_natCast, hrc4, hres.icvRight]

/-- WEP: the IV is the front of the key. -/
theorem wep_restored {c : Cipher} (hc : c = .wep40 ∨ c = .wep104) (h : OneFragment x c n)
    (ha : Arrives (rtwWepEncrypt fragLen sec x) f)
    (hk : wepKeyBytes rsec f.attrib.keyIndex = wepKeyBytes sec sec.dot11PrivacyKeyIndex) :
    ∃ g, rtwWepDecrypt rsec f = .done g ∧ Restored x n g := by
  have hicv : c.icvLen = 4 := by rcases hc with rfl | rfl <;> rfl
  have hiv : c.ivLen = 4 := by rcases hc with rfl | rfl <;> rfl
  rw [rtwWepEncrypt_sealed h] at ha
  obtain ⟨hlen, hfront, -⟩ := ha.parts h hicv
  have hhdr : f.attrib.hdrlen = x.attrib.hdrlen := ha.hdrlen
  have hivLen := h.ivLen
  have hkey : rxWepKey rsec f
      = x.mem.read (x.firstStart + x.attrib.hdrlen) 3
        ++ wepKeyBytes sec sec.dot11PrivacyKeyIndex := by
    have hread : f.buf.read (f.rxData + f.attrib.hdrlen) 3
        = x.mem.read (x.firstStart + x.attrib.hdrlen) 3 := by
      rw [hhdr]
      refine List.map_congr_left fun i hi => ?_
      have hi' := List.mem_range.mp hi
      rw [Nat.add_assoc, Nat.add_assoc, hfront _ (by omega)]
    rw [← hread, ← hk]
    rfl
  refine ⟨_, ?_, ha.restored h hicv⟩
  unfold rtwWepDecrypt
  dsimp only
  rw [hlen, if_neg (by omega), Int.toNat_natCast, hkey]

end

/-- **Software decryption inverts software encryption** for TKIP and for WEP: whatever the
key, the transmitter, the IV, the header and the payload of a packet in one fragment, the
receiver that has the key gets header, IV and payload back, with the little-endian CRC-32 of
the payload behind them, and `rtw_tkip_decrypt` returns `_SUCCESS`. -/
theorem rc4_decrypt_inverts_encrypt (fragLen n : Nat) (sec rsec : SecurityPriv) (x : XmitFrame)
    (f : RecvFrame) :
    (∀ stainfo, OneFragment x .tkip n → Arrives (rtwTkipEncrypt fragLen sec x) f →
        HoldsKey rsec stainfo f (txKey sec x.attrib) →
        ∃ g, rtwTkipDecrypt rsec stainfo f = .done (g, true) ∧ Restored x n g)
      ∧ ∀ c, c = .wep40 ∨ c = .wep104 → OneFragment x c n →
        Arrives (rtwWepEncrypt fragLen sec x) f →
        wepKeyBytes rsec f.attrib.keyIndex = wepKeyBytes sec sec.dot11PrivacyKeyIndex →
        ∃ g, rtwWepDecrypt rsec f = .done g ∧ Restored x n g :=
  ⟨fun _ h ha hk => tkip_restored h ha hk, fun _ hc h ha hk => wep_restored hc h ha hk⟩

/-- The frame as it is heard, with what validation reads from it. -/
def heard (x : XmitFrame) : RecvFrame where
  id := 0
  attrib :=
    { hdrlen := x.attrib.hdrlen, encrypt := x.attrib.encrypt, ivLen := x.attrib.ivLen
      ta := x.attrib.ta }
  len := x.attrib.lastTxcmdsz
  rxTail := x.attrib.lastTxcmdsz
  rxEnd := x.attrib.lastTxcmdsz
  buf := x.mem.shift x.firstStart

theorem arrives_heard (x : XmitFrame) : Arrives x (heard x) := by
  refine ⟨List.map_congr_left fun i _ => ?_, rfl, rfl, rfl, rfl⟩
  show x.mem (x.firstStart + (0 + i)) = x.mem (x.firstStart + i)
  rw [Nat.zero_add]

/-- A packet of five bytes under cipher `c`, with some key and some IV. -/
def sampleSealing (c : Cipher) : XmitFrame where
  attrib :=
    { hdr := plainHdr, encrypt := c, ivLen := c.ivLen, icvLen := c.icvLen, nrFrags := 1
      lastTxcmdsz := 24 + c.ivLen + 5 + c.icvLen, ta := ⟨2, 0, 0, 0, 0, 2⟩
      dot118021xUncstKey := fun i => UInt8.ofNat i }
  bufAddr := 64
  aligned := aligned_64
  mem := fun k => UInt8.ofNat k

/-- Somebody who has the five bytes of a WEP key at index 2, and who sends under it. -/
def sampleWepHolder : SecurityPriv :=
  { dot11PrivacyKeyIndex := 2, dot11DefKey := fun _ _ => 9, dot11DefKeylen := fun _ => 5 }

theorem rc4_decrypt_inverts_encrypt_sample :
    (∃ g, rtwTkipDecrypt {} (some { dot118021xUncstKey := fun i => UInt8.ofNat i })
          (heard (rtwTkipEncrypt 2346 {} (sampleSealing .tkip))) = .done (g, true)
        ∧ Restored (sampleSealing .tkip) 5 g)
      ∧ ∃ g, rtwWepDecrypt sampleWepHolder
          (heard (rtwWepEncrypt 2346 sampleWepHolder (sampleSealing .wep40))) = .done g
        ∧ Restored (sampleSealing .wep40) 5 g := by
  refine ⟨?_, ?_⟩
  · exact (rc4_decrypt_inverts_encrypt 2346 5 {} {} (sampleSealing .tkip) _).1 _
      ⟨by decide, rfl, rfl, rfl, rfl, rfl, by decide⟩ (arrives_heard _)
      ⟨⟨_, rfl, rfl⟩, fun h => by cases h⟩
  · exact (rc4_decrypt_inverts_encrypt 2346 5 sampleWepHolder sampleWepHolder
      (sampleSealing .wep40) _).2 .wep40 (Or.inl rfl)
      ⟨by decide, rfl, rfl, rfl, rfl, rfl, by decide⟩ (arrives_heard _) rfl

end Rtl8812au
