import Rtl8812au.Security.Ccmp

/-!
# CCMP decryption inverts encryption

Everything the two functions read besides the payload stands in the frame header
and the CCMP header, below the payload, where neither of them writes. So both see
the same nonce, the same header blocks and the same key stream, and counter mode
undoes itself.
-/

namespace Rtl8812au.Ccmp

open BlockMode

variable {aes : AesKey → Block → Block} {key : AesKey} {a4 qc : Bool} {pn : Nat → UInt8}
variable {m m' : Mem} {hdrlen n : Nat}

/-! ## What depends on the header only -/

theorem constructMicIv_congr (h : SameBelow 32 m m') (len : Nat) :
    constructMicIv qc a4 m len pn = constructMicIv qc a4 m' len pn := by
  funext i
  unfold constructMicIv
  rw [h 30 (by omega), h 24 (by omega)]
  split_ifs <;> first | rfl | exact h _ (by omega)

theorem constructMicHeader1_congr (h : SameBelow 32 m m') (len : Nat) :
    constructMicHeader1 len m = constructMicHeader1 len m' := by
  funext i
  unfold constructMicHeader1
  rw [h 0 (by omega), h 1 (by omega), h i (by omega)]

theorem constructMicHeader2_congr (h : SameBelow 32 m m') :
    constructMicHeader2 m a4 qc = constructMicHeader2 m' a4 qc := by
  funext i
  unfold constructMicHeader2
  rw [h 30 (by omega), h 24 (by omega)]
  split_ifs <;> first | rfl | exact h _ (by omega)

theorem constructCtrPreload_congr (h : SameBelow 32 m m') (c : Nat) :
    constructCtrPreload a4 qc m pn c = constructCtrPreload a4 qc m' pn c := by
  funext i
  unfold constructCtrPreload
  rw [h 30 (by omega), h 24 (by omega)]
  split_ifs <;> first | rfl | exact h _ (by omega)

theorem sameBelow_mono {p q : Nat} (h : SameBelow p m m') (hq : q ≤ p) : SameBelow q m m' :=
  fun k hk => h k (by omega)

theorem qcExists_congr {p : Nat} (h : SameBelow p m m') (hp : 2 ≤ p) :
    qcExists m = qcExists m' := by
  have h0 : m.le16 0 = m'.le16 0 := by
    unfold Mem.le16
    rw [h 0 (by omega), h (0 + 1) (by omega)]
  unfold qcExists frtype frsubtype
  rw [h0]

theorem pnVector_congr (h : SameBelow (hdrlen + 8) m m') :
    pnVector m hdrlen = pnVector m' hdrlen := by
  funext k
  unfold pnVector
  split_ifs <;> first | rfl | exact h _ (by omega)

/-- The key stream depends on what lies below the payload. -/
theorem keyStream_below (hh : 24 ≤ hdrlen) : Below (keyStream aes key a4 qc pn) (hdrlen + 8) := by
  intro m m' h
  funext c
  unfold keyStream
  rw [constructCtrPreload_congr (sameBelow_mono h (by omega))]

/-- The MIC depends on what lies below the payload and on the payload. -/
theorem calculateMic_congr (hh : 24 ≤ hdrlen) (h : SameBelow (hdrlen + 8 + n) m m') :
    calculateMic aes key a4 qc pn hdrlen m n = calculateMic aes key a4 qc pn hdrlen m' n := by
  have h32 : SameBelow 32 m m' := sameBelow_mono h (by omega)
  unfold calculateMic
  rw [constructMicIv_congr h32, constructMicHeader1_congr h32, constructMicHeader2_congr h32]
  exact cbcMac_congr _ (fun k _ hk => h k hk)

/-! ## What sealing does to the frame -/

/-- **Sealing, byte by byte**: the payload is xored with the key stream and the MIC,
xored with block 0 of it, stands behind. -/
theorem sealPayload_eq (hh : 24 ≤ hdrlen) :
    sealPayload aes key a4 qc pn hdrlen m n
      = storeBlock (ctrPayload (keyStream aes key a4 qc pn) (hdrlen + 8) n m) (hdrlen + 8 + n) 8
          (bitwiseXor (keyStream aes key a4 qc pn m 0)
            (calculateMic aes key a4 qc pn hdrlen m n)) := by
  have hks := @keyStream_below aes key a4 qc pn hdrlen hh
  generalize hmic : calculateMic aes key a4 qc pn hdrlen m n = mic
  have hst : SameBelow (hdrlen + 8) (storeBlock m (hdrlen + 8 + n) 8 mic) m :=
    storeBlock_below (by omega)
  -- block 0 of the key stream is taken from the same header
  have hks0 : keyStream aes key a4 qc pn (ctrPayload (keyStream aes key a4 qc pn) (hdrlen + 8) n
      (storeBlock m (hdrlen + 8 + n) 8 mic)) = keyStream aes key a4 qc pn m :=
    hks _ _ ((ctrPayload_below hks n _).trans hst)
  unfold sealPayload
  dsimp only
  rw [hmic, hks0]
  funext k
  by_cases hk : hdrlen + 8 + n ≤ k ∧ k < hdrlen + 8 + n + 8
  · obtain ⟨i, rfl⟩ := Nat.exists_eq_add_of_le hk.1
    have hi : i < 8 := by omega
    rw [storeBlock_inside hi (by omega), storeBlock_inside hi (by omega)]
    unfold bitwiseXor padded
    rw [if_pos hi, ctrPayload_above hks _ (by omega), storeBlock_inside hi (by omega)]
  · rw [storeBlock_outside (by omega), storeBlock_outside (by omega), ctrPayload_apply hks,
      ctrPayload_apply hks, stream_congr hks hst, storeBlock_outside (by omega)]

theorem sealPayload_below (hh : 24 ≤ hdrlen) :
    SameBelow (hdrlen + 8) (sealPayload aes key a4 qc pn hdrlen m n) m := by
  rw [sealPayload_eq hh]
  exact (storeBlock_below (by omega)).trans (ctrPayload_below (keyStream_below hh) n m)

/-- The MIC bytes of a sealed frame. -/
theorem sealPayload_mic (hh : 24 ≤ hdrlen) {i : Nat} (hi : i < 8) :
    sealPayload aes key a4 qc pn hdrlen m n (hdrlen + 8 + n + i)
      = bitwiseXor (keyStream aes key a4 qc pn m 0)
          (calculateMic aes key a4 qc pn hdrlen m n) ⟨i, by omega⟩ := by
  rw [sealPayload_eq hh, storeBlock_inside hi (by omega)]

/-- **Decrypting the payload of a sealed frame gives the frame back**, with the
encrypted MIC behind it. -/
theorem ctrPayload_sealPayload (hh : 24 ≤ hdrlen) :
    ctrPayload (keyStream aes key a4 qc pn) (hdrlen + 8) n
        (sealPayload aes key a4 qc pn hdrlen m n)
      = storeBlock m (hdrlen + 8 + n) 8 (bitwiseXor (keyStream aes key a4 qc pn m 0)
          (calculateMic aes key a4 qc pn hdrlen m n)) := by
  have hks := @keyStream_below aes key a4 qc pn hdrlen hh
  rw [sealPayload_eq hh]
  generalize bitwiseXor (keyStream aes key a4 qc pn m 0)
    (calculateMic aes key a4 qc pn hdrlen m n) = b
  have hbelow : SameBelow (hdrlen + 8) (storeBlock (ctrPayload (keyStream aes key a4 qc pn)
      (hdrlen + 8) n m) (hdrlen + 8 + n) 8 b) m :=
    (storeBlock_below (by omega)).trans (ctrPayload_below hks n m)
  funext k
  rw [ctrPayload_apply hks, stream_congr hks hbelow]
  by_cases hk : hdrlen + 8 ≤ k ∧ k < hdrlen + 8 + n
  · rw [if_pos hk, storeBlock_outside (by omega), storeBlock_outside (by omega),
      ctrPayload_apply hks, if_pos hk, ← UInt8.xor_assoc, UInt8.xor_self, UInt8.zero_xor]
  · rw [if_neg hk]
    by_cases hm : hdrlen + 8 + n ≤ k ∧ k < hdrlen + 8 + n + 8
    · obtain ⟨i, rfl⟩ := Nat.exists_eq_add_of_le hm.1
      rw [storeBlock_inside (by omega) (by omega), storeBlock_inside (by omega) (by omega)]
    · rw [storeBlock_outside (by omega), storeBlock_outside (by omega),
        ctrPayload_apply hks, if_neg hk]

/-! ## The round trip -/

/-- The frames in question: a 24-byte management or non-QoS data header, or a 26-byte
QoS data header. -/
def HeaderForm (m : Mem) (hdrlen : Nat) : Prop :=
  (hdrlen = 24 ∧ (Wifi.getFrameType m 0 = .mgt
      ∨ (Wifi.getFrameType m 0 = .data ∧ Wifi.fcBit m 0 7 = false)))
    ∨ (hdrlen = 26 ∧ Wifi.getFrameType m 0 = .data ∧ Wifi.fcBit m 0 7 = true)

/-- `hdrlen` already counts the QoS control if there is one. -/
def Settled (m : Mem) (hdrlen : Nat) : Prop :=
  (hdrlen = 24 ∧ qcExists m = false) ∨ hdrlen = 26

theorem and_low_byte (w : Nat) {k : Nat} (hk : 0xff &&& k = k) : w &&& k = (w % 256) &&& k := by
  have h : w % 256 = w &&& 0xff := (Nat.and_two_pow_sub_one_eq_mod w 8).symm
  rw [h, Nat.and_assoc, hk]

/-- Over the low byte of the frame control field: QoS control is only seen in data
frames with the QoS bit. -/
theorem qos_byte : ∀ x : Fin 256,
    ((x.val &&& 0xc) ||| ((x.val &&& 0xfc) >>> 4) = 0x18
      ∨ (x.val &&& 0xc) ||| ((x.val &&& 0xfc) >>> 4) = 0x28
      ∨ (x.val &&& 0xc) ||| ((x.val &&& 0xfc) >>> 4) = 0x38
      ∨ (x.val &&& 0xc = 8 ∧ 8 ≤ (x.val &&& 0xfc) >>> 4)) →
    x.val &&& 0xc = 8 ∧ x.val.testBit 7 = true := by
  decide +kernel

theorem qcExists_imp (h : qcExists m = true) :
    m.le16 0 &&& 0xc = 8 ∧ (m.le16 0).testBit 7 = true := by
  have h7 : (m.le16 0).testBit 7 = (m.le16 0 % 256).testBit 7 := by
    rw [show (256 : Nat) = 2 ^ 8 from rfl, Nat.testBit_mod_two_pow]
    rfl
  have hx := qos_byte ⟨m.le16 0 % 256, Nat.mod_lt _ (by omega)⟩
  unfold qcExists frtype frsubtype at h
  rw [and_low_byte (m.le16 0) (k := 0xc) rfl, and_low_byte (m.le16 0) (k := 0xfc) rfl] at h
  rw [h7, and_low_byte (m.le16 0) (k := 0xc) rfl]
  refine hx ?_
  simp only [Bool.or_eq_true, Bool.and_eq_true, beq_iff_eq] at h
  dsimp only
  omega

theorem settled_of_form (h : HeaderForm m hdrlen) : Settled m hdrlen := by
  rcases h with ⟨h24, hf⟩ | ⟨h26, -⟩
  · refine Or.inl ⟨h24, ?_⟩
    cases hq : qcExists m with
    | false => rfl
    | true =>
        obtain ⟨hd, h7⟩ := qcExists_imp hq
        rcases hf with hm | ⟨-, hb⟩
        · unfold Wifi.getFrameType at hm
          rw [hd] at hm
          exact absurd hm (by simp)
        · unfold Wifi.fcBit at hb
          rw [h7] at hb
          exact absurd hb (by simp)
  · exact Or.inr h26

theorem adjustHdrlen_eq (h : Settled m hdrlen) : adjustHdrlen m hdrlen = hdrlen := by
  unfold adjustHdrlen wlanHdrA3QosLen
  rcases h with ⟨rfl, hq⟩ | rfl
  · simp [hq]
  · simp

theorem u32_of_lt {k : Nat} (h : k < 2 ^ 32) : u32 k = k := Nat.mod_eq_of_lt h

/-- The copy into `message` makes it agree with the frame. -/
theorem copy_below (message : Mem) (pframe : Mem) (L : Nat) :
    SameBelow L (message.copy 0 pframe 0 L) pframe := by
  intro k hk
  have hlen : k < (pframe.read 0 L).length := by simpa using hk
  have hw := @Mem.write_inside message 0 k (pframe.read 0 L) hlen
  rw [Nat.zero_add] at hw
  rw [Mem.copy, hw]
  simp [Mem.read]

/-- **Software CCMP decryption inverts software CCMP encryption.** For every block
cipher, key, frame and payload length that fits the message buffer, the frame comes
back with `_SUCCESS`, its payload restored, header and CCMP header unchanged. -/
theorem aesDecipher_aesCipher (aes : AesKey → Block → Block) (key : AesKey) (message m : Mem)
    {hdrlen n : Nat} (hform : HeaderForm m hdrlen) (hn : hdrlen + n + 16 ≤ 2048) :
    let r := aesDecipher aes key message hdrlen (aesCipher aes key hdrlen m n) (n + 8)
    r.ok = true
      ∧ (∀ k < n, r.pframe (hdrlen + 8 + k) = m (hdrlen + 8 + k))
      ∧ ∀ k < hdrlen + 8, r.pframe k = m k := by
  replace hform := settled_of_form hform
  have hh : 24 ≤ hdrlen := by rcases hform with ⟨rfl, -⟩ | rfl <;> omega
  have hcipher : aesCipher aes key hdrlen m n
      = sealPayload aes key (a4Exists hdrlen) (qcExists m) (pnVector m hdrlen) hdrlen m n := by
    unfold aesCipher
    dsimp only
    rw [adjustHdrlen_eq hform]
  rw [hcipher]
  generalize ha4 : a4Exists hdrlen = a4
  generalize hqc : qcExists m = qc
  generalize hpn : pnVector m hdrlen = pn
  have hseal := @sealPayload_below aes key a4 qc pn m hdrlen n hh
  -- what the two sides read from the header is the same
  have hqc1 : qcExists (sealPayload aes key a4 qc pn hdrlen m n) = qc :=
    (qcExists_congr hseal (by omega)).trans hqc
  have hpn1 : pnVector (sealPayload aes key a4 qc pn hdrlen m n) hdrlen = pn :=
    (pnVector_congr hseal).trans hpn
  have hadj1 : adjustHdrlen (sealPayload aes key a4 qc pn hdrlen m n) hdrlen = hdrlen := by
    refine adjustHdrlen_eq ?_
    rcases hform with ⟨h24, hq⟩ | h26
    · exact Or.inl ⟨h24, by rw [hqc1, ← hqc, hq]⟩
    · exact Or.inr h26
  have hdec := @ctrPayload_sealPayload aes key a4 qc pn m hdrlen n hh
  generalize hm2 : storeBlock m (hdrlen + 8 + n) 8 (bitwiseXor (keyStream aes key a4 qc pn m 0)
    (calculateMic aes key a4 qc pn hdrlen m n)) = m2 at hdec
  have hbelow2 : SameBelow (hdrlen + 8 + n) m2 m := by
    rw [← hm2]; exact storeBlock_below (Nat.le_refl _)
  have hpn2 : pnVector m2 hdrlen = pn :=
    (pnVector_congr (sameBelow_mono hbelow2 (by omega))).trans hpn
  have hn8 : u32 (n + 8 + 2 ^ 32 - 8) = n := by
    have : n + 8 + 2 ^ 32 - 8 = n + 2 ^ 32 := by omega
    rw [this, u32, Nat.add_mod_right, Nat.mod_eq_of_lt (by omega)]
  have hL : u32 (hdrlen + (n + 8) + 8) = hdrlen + (n + 8) + 8 := u32_of_lt (by omega)
  unfold aesDecipher
  dsimp only
  rw [ha4, hqc1, hpn1, hadj1, hn8, hdec, hpn2, hL]
  rw [if_pos (show hdrlen + (n + 8) + 8 ≤ maxMsgSize by unfold maxMsgSize; omega)]
  have hmsg := copy_below message m2 (hdrlen + (n + 8) + 8)
  generalize message.copy 0 m2 0 (hdrlen + (n + 8) + 8) = msg at hmsg
  have hmsg2 : SameBelow (hdrlen + 8 + n) msg m :=
    (sameBelow_mono hmsg (by omega)).trans hbelow2
  refine ⟨?_, ?_, ?_⟩
  · rw [List.all_eq_true]
    intro i hi
    rw [List.mem_range] at hi
    have hidx : u32 (hdrlen + (n + 8) + i) = hdrlen + 8 + n + i := by
      rw [u32_of_lt (by omega)]; omega
    have hksm : keyStream aes key a4 qc pn msg = keyStream aes key a4 qc pn m :=
      keyStream_below hh _ _ (sameBelow_mono hmsg2 (by omega))
    rw [hidx, sealPayload_mic hh hi, calculateMic_congr hh hmsg2, hksm, ← hm2,
      storeBlock_inside hi (by omega)]
    exact beq_self_eq_true _
  · intro k hk
    exact hbelow2 _ (by omega)
  · intro k hk
    exact hbelow2 _ (by omega)

/-- A QoS data frame with three bytes of payload, through a cipher that is not even
a permutation. -/
theorem aesDecipher_aesCipher_sample :
    let m : Mem := fun k => if k = 0 then 0x88 else UInt8.ofNat (7 * k)
    let aes : AesKey → Block → Block := fun key b i => key i + b i * b 0
    let r := aesDecipher aes (fun i => UInt8.ofNat i) (fun _ => 0) 26
      (aesCipher aes (fun i => UInt8.ofNat i) 26 m 3) 11
    r.ok = true ∧ r.pframe 34 = m 34 := by
  have h := aesDecipher_aesCipher (fun key b i => key i + b i * b 0) (fun i => UInt8.ofNat i)
    (fun _ => 0) (fun k => if k = 0 then 0x88 else UInt8.ofNat (7 * k))
    (Or.inr ⟨rfl, by decide, by decide⟩ : HeaderForm _ 26) (by decide : 26 + 3 + 16 ≤ 2048)
  exact ⟨h.1, h.2.1 0 (by decide)⟩

end Rtl8812au.Ccmp
