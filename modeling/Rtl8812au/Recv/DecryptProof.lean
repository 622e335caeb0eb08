import Rtl8812au.Recv.Decrypt
import Rtl8812au.Security.CcmpProof

/-!
# When software decryption checks integrity

TKIP and CCMP compare the integrity value and refuse the frame if it is wrong; WEP
only traces a mismatch. All three start from a length that nothing has checked, and a
frame that is too short, or for CCMP too long for the message buffer, makes them run
out of bounds. The theorem says exactly for which frames the check is what it should
be.
-/

namespace Rtl8812au

open BlockMode

/-! ## The comparison of `aes_decipher` -/

namespace Ccmp

/-- The eight bytes behind the payload of a decrypted frame, still under block 0 of the
key stream, hold the MIC of that payload. `plen` counts the MIC. -/
def MicRight (aes : AesKey → Block → Block) (key : AesKey) (hdrlen : Nat) (pframe : Mem)
    (plen : Nat) : Prop :=
  let hdr := adjustHdrlen pframe hdrlen
  let pn := pnVector pframe hdr
  ∀ i : Fin 8,
    pframe (hdr + plen + i)
        ^^^ keyStream aes key (a4Exists hdrlen) (qcExists pframe) pn pframe 0 ⟨i, by omega⟩
      = calculateMic aes key (a4Exists hdrlen) (qcExists pframe) pn hdr pframe (plen - 8)
          ⟨i, by omega⟩

theorem adjustHdrlen_ge (m : Mem) (hdrlen : Nat) : hdrlen ≤ adjustHdrlen m hdrlen := by
  unfold adjustHdrlen
  split <;> omega

theorem adjustHdrlen_congr {m m' : Mem} {p hdrlen : Nat} (h : SameBelow p m m') (hp : 2 ≤ p) :
    adjustHdrlen m hdrlen = adjustHdrlen m' hdrlen := by
  unfold adjustHdrlen
  rw [qcExists_congr h hp]

/-- **`aes_decipher` returns `_SUCCESS` only for a frame whose MIC is right.** -/
theorem micRight_of_ok {aes : AesKey → Block → Block} {key : AesKey} {message m : Mem}
    {hdrlen plen : Nat} (hh : 24 ≤ hdrlen) (h8 : 8 ≤ plen)
    (hfit : adjustHdrlen m hdrlen + plen + 8 ≤ maxMsgSize)
    (hok : (aesDecipher aes key message hdrlen m plen).ok = true) :
    MicRight aes key hdrlen (aesDecipher aes key message hdrlen m plen).pframe plen := by
  have hge := adjustHdrlen_ge m hdrlen
  have hn8 : u32 (plen + 2 ^ 32 - 8) = plen - 8 := by
    have hsum : plen + 2 ^ 32 - 8 = plen - 8 + 2 ^ 32 := by omega
    unfold maxMsgSize at hfit
    rw [hsum, u32, Nat.add_mod_right, Nat.mod_eq_of_lt (by omega)]
  have hL : u32 (adjustHdrlen m hdrlen + plen + 8) = adjustHdrlen m hdrlen + plen + 8 := by
    unfold maxMsgSize at hfit
    exact u32_of_lt (by omega)
  unfold aesDecipher at hok ⊢
  dsimp only at hok ⊢
  rw [hn8, hL, if_pos hfit] at hok
  rw [hn8]
  generalize hdr : adjustHdrlen m hdrlen = H at *
  generalize pnVector m hdrlen = pn0 at *
  have hks0 := @keyStream_below aes key (a4Exists hdrlen) (qcExists m) pn0 H (by omega)
  have hbelow : SameBelow (H + 8) (ctrPayload (keyStream aes key (a4Exists hdrlen) (qcExists m) pn0)
      (H + 8) (plen - 8) m) m := ctrPayload_below hks0 _ m
  generalize ctrPayload (keyStream aes key (a4Exists hdrlen) (qcExists m) pn0) (H + 8) (plen - 8) m
    = m2 at *
  -- the header is as it was
  have hqc : qcExists m2 = qcExists m := qcExists_congr hbelow (by omega)
  have hadj : adjustHdrlen m2 hdrlen = H := (adjustHdrlen_congr hbelow (by omega)).trans hdr
  have hmsg := copy_below message m2 (H + plen + 8)
  generalize message.copy 0 m2 0 (H + plen + 8) = msg at *
  intro i
  rw [hadj, hqc]
  have hi := List.all_eq_true.mp hok i (List.mem_range.mpr i.isLt)
  have hidx : u32 (H + plen + i) = H + 8 + (plen - 8) + i := by
    unfold maxMsgSize at hfit
    rw [u32_of_lt (by omega)]
    omega
  have hidx2 : H + plen + i = H + 8 + (plen - 8) + i := by omega
  generalize pnVector m2 H = pn at *
  have hksm : keyStream aes key (a4Exists hdrlen) (qcExists m) pn msg
      = keyStream aes key (a4Exists hdrlen) (qcExists m) pn m2 :=
    keyStream_below (by omega) _ _ (sameBelow_mono hmsg (by omega))
  have hmic := @calculateMic_congr aes key (a4Exists hdrlen) (qcExists m) pn msg m2 H (plen - 8)
    (by omega) (sameBelow_mono hmsg (by omega))
  rw [hidx, sealPayload_mic (by omega) i.isLt, hksm, hmic] at hi
  rw [hidx2, beq_iff_eq.mp hi]
  unfold bitwiseXor
  rw [UInt8.xor_comm, ← UInt8.xor_assoc, UInt8.xor_self, UInt8.zero_xor]

end Ccmp

/-! ## What passes -/

section

variable (aes : AesKey → Block → Block) (sec : SecurityPriv) (stainfo : Option StaInfo)

/-- The integrity value that the decrypted frame `g` carries is the one of its payload;
`f` is the frame before decryption. -/
def IntegrityRight (f g : RecvFrame) : Prop :=
  match f.attrib.encrypt with
  | .wep40 | .wep104 | .tkip => icvRight g (decryptLength f).toNat = true
  | .aes =>
    ∃ psta, stainfo = some psta
      ∧ Ccmp.MicRight aes (rxKey sec psta f) f.attrib.hdrlen (g.buf.shift g.rxData)
          (decryptLength f).toNat
  | _ => True

/-- `decryptor` returns the frame with its integrity checked, or frees it and returns
`NULL`. -/
def OnlyCheckedPass (message : Mem) (f : RecvFrame) : Prop :=
  match decryptor aes sec stainfo message f with
  | .overrun => False
  | .hangs => False
  | .done d =>
    (∃ g, d.frame = some g ∧ d.freed = none ∧ IntegrityRight aes sec stainfo (readKeyIndex f) g)
      ∨ (d.frame = none ∧ ∃ g, d.freed = some g ∧ g.id = f.id)

/-- The frame is refused before its payload is looked at: there is no station for it, or
no group key. -/
def RefusedEarly (f : RecvFrame) : Prop :=
  stainfo = none ∨ (f.attrib.ra.isMcast = true ∧ sec.binstallGrpkey = false)

/-- A group-addressed frame under another key than the installed one, which CCMP
refuses too. -/
def OtherGroupKey (f : RecvFrame) : Prop :=
  f.attrib.ra.isMcast = true ∧ sec.dot118021XGrpKeyid ≠ f.attrib.keyIndex

/-- The ICV of a WEP frame is right. -/
def WepIcvRight (f : RecvFrame) : Prop :=
  icvRight (rc4Open (rxWepKey sec f) f (decryptLength f).toNat) (decryptLength f).toNat = true

/-- The frames that are checked as they should be. -/
def ChecksSoundly (f : RecvFrame) : Prop :=
  match f.attrib.encrypt with
  | .wep40 | .wep104 => 0 ≤ decryptLength f ∧ WepIcvRight sec f
  | .tkip => RefusedEarly sec stainfo f ∨ 0 ≤ decryptLength f
  | .aes =>
    RefusedEarly sec stainfo f ∨ OtherGroupKey sec f
      ∨ (8 ≤ decryptLength f
        ∧ Ccmp.adjustHdrlen (f.buf.shift f.rxData) f.attrib.hdrlen + (decryptLength f).toNat + 8
            ≤ maxMsgSize)
  | _ => True

end

section

variable {aes : AesKey → Block → Block} {sec : SecurityPriv} {stainfo : Option StaInfo}
variable {message : Mem} {f : RecvFrame}

theorem readKeyIndex_encrypt (f : RecvFrame) : (readKeyIndex f).attrib.encrypt = f.attrib.encrypt := by
  unfold readKeyIndex
  split <;> rfl

theorem readKeyIndex_id (f : RecvFrame) : (readKeyIndex f).id = f.id := by
  unfold readKeyIndex
  split <;> rfl

theorem readKeyIndex_hdrlen (f : RecvFrame) : (readKeyIndex f).attrib.hdrlen = f.attrib.hdrlen := by
  unfold readKeyIndex
  split <;> rfl

/-- Under software decryption everything rests on the `switch`. -/
theorem onlyCheckedPass_iff (hsw : swDecrypts sec (readKeyIndex f) = true) :
    OnlyCheckedPass aes sec stainfo message f ↔
      match swDecryptSwitch aes { sec with hwDecrypted := false } stainfo message
          (readKeyIndex f) with
      | .overrun => False
      | .hangs => False
      | .done (g, _, true) => IntegrityRight aes sec stainfo (readKeyIndex f)
          { g with attrib := { g.attrib with bdecrypted := true } }
      | .done (g, _, false) => g.id = f.id := by
  unfold OnlyCheckedPass decryptor
  dsimp only
  rw [if_pos hsw]
  cases swDecryptSwitch aes { sec with hwDecrypted := false } stainfo message (readKeyIndex f) with
  | overrun => exact Iff.rfl
  | hangs => exact Iff.rfl
  | done r =>
      obtain ⟨g, msg, ok⟩ := r
      cases ok with
      | true =>
          refine ⟨?_, fun h => Or.inl ⟨_, rfl, rfl, h⟩⟩
          rintro (⟨g', hg, -, h⟩ | ⟨h, -⟩)
          · obtain rfl := Option.some.inj hg
            exact h
          · exact absurd h (by simp)
      | false =>
          refine ⟨?_, fun h => Or.inr ⟨rfl, _, rfl, h⟩⟩
          rintro (⟨g', hg, -⟩ | ⟨-, g', hg, h⟩)
          · exact absurd hg (by simp)
          · obtain rfl := Option.some.inj hg
            exact h

/-- WEP: everything that is long enough passes. -/
theorem onlyCheckedPass_wep (hsw : swDecrypts sec (readKeyIndex f) = true)
    (hc : f.attrib.encrypt = .wep40 ∨ f.attrib.encrypt = .wep104) :
    OnlyCheckedPass aes sec stainfo message f
      ↔ 0 ≤ decryptLength (readKeyIndex f) ∧ WepIcvRight sec (readKeyIndex f) := by
  rw [onlyCheckedPass_iff hsw]
  have hk := readKeyIndex_encrypt f
  generalize readKeyIndex f = k at hk ⊢
  unfold swDecryptSwitch IntegrityRight rtwWepDecrypt
  rcases hc with hc | hc
  all_goals
    rw [hk, hc]
    dsimp only
    by_cases hl : decryptLength k < 0
    · rw [if_pos hl]
      refine ⟨False.elim, fun h => ?_⟩
      have := h.1
      omega
    · rw [if_neg hl]
      exact ⟨fun h => ⟨by omega, h⟩, fun h => h.2⟩

/-- TKIP: the ICV decides, unless the frame is refused before. -/
theorem onlyCheckedPass_tkip (hsw : swDecrypts sec (readKeyIndex f) = true)
    (hc : f.attrib.encrypt = .tkip) :
    OnlyCheckedPass aes sec stainfo message f
      ↔ RefusedEarly sec stainfo (readKeyIndex f) ∨ 0 ≤ decryptLength (readKeyIndex f) := by
  rw [onlyCheckedPass_iff hsw]
  have hk := readKeyIndex_encrypt f
  have hid := readKeyIndex_id f
  generalize readKeyIndex f = k at hk hid ⊢
  unfold swDecryptSwitch IntegrityRight rtwTkipDecrypt RefusedEarly
  rw [hk, hc]
  dsimp only
  cases stainfo with
  | none => exact ⟨fun _ => Or.inl (Or.inl rfl), fun _ => hid⟩
  | some psta =>
      dsimp only
      by_cases hg : (k.attrib.ra.isMcast && !sec.binstallGrpkey) = true
      · rw [if_pos hg]
        rw [Bool.and_eq_true, Bool.not_eq_true'] at hg
        exact ⟨fun _ => Or.inl (Or.inr hg), fun _ => hid⟩
      · rw [if_neg hg]
        have hno : ¬ ((some psta = none) ∨ k.attrib.ra.isMcast = true ∧ sec.binstallGrpkey = false) := by
          rintro (h | h)
          · exact absurd h (by simp)
          · exact hg (by rw [h.1, h.2]; rfl)
        by_cases hl : decryptLength k < 0
        · rw [if_pos hl]
          refine ⟨False.elim, ?_⟩
          rintro (h | h)
          · exact hno h
          · omega
        · rw [if_neg hl]
          refine ⟨fun _ => Or.inr (by omega), fun _ => ?_⟩
          dsimp only
          cases hi : icvRight (rc4Open (Tkip.rc4Key (rxKey { sec with hwDecrypted := false } psta k)
              k.attrib.ta k.buf (k.rxData + k.attrib.hdrlen)) k (decryptLength k).toNat)
              (decryptLength k).toNat with
          | true => exact hi
          | false => exact hid

/-- CCMP: the MIC decides, unless the frame is refused before. -/
theorem onlyCheckedPass_aes (hsw : swDecrypts sec (readKeyIndex f) = true)
    (hc : f.attrib.encrypt = .aes) (hh : 24 ≤ f.attrib.hdrlen) :
    OnlyCheckedPass aes sec stainfo message f
      ↔ RefusedEarly sec stainfo (readKeyIndex f) ∨ OtherGroupKey sec (readKeyIndex f)
        ∨ (8 ≤ decryptLength (readKeyIndex f)
          ∧ Ccmp.adjustHdrlen ((readKeyIndex f).buf.shift (readKeyIndex f).rxData)
              (readKeyIndex f).attrib.hdrlen + (decryptLength (readKeyIndex f)).toNat + 8
            ≤ maxMsgSize) := by
  rw [onlyCheckedPass_iff hsw]
  have hk := readKeyIndex_encrypt f
  have hid := readKeyIndex_id f
  rw [← readKeyIndex_hdrlen f] at hh
  generalize readKeyIndex f = k at hk hid hh ⊢
  unfold swDecryptSwitch IntegrityRight rtwAesDecrypt RefusedEarly OtherGroupKey
  rw [hk, hc]
  dsimp only
  cases stainfo with
  | none => exact ⟨fun _ => Or.inl (Or.inl rfl), fun _ => hid⟩
  | some psta =>
      dsimp only
      by_cases hg : (k.attrib.ra.isMcast && !sec.binstallGrpkey) = true
      · rw [if_pos hg]
        rw [Bool.and_eq_true, Bool.not_eq_true'] at hg
        exact ⟨fun _ => Or.inl (Or.inr hg), fun _ => hid⟩
      · have hno : ¬ ((some psta = none) ∨ k.attrib.ra.isMcast = true ∧ sec.binstallGrpkey = false) := by
          rintro (h | h)
          · exact absurd h (by simp)
          · exact hg (by rw [h.1, h.2]; rfl)
        rw [if_neg hg]
        by_cases ho : (k.attrib.ra.isMcast && sec.dot118021XGrpKeyid != k.attrib.keyIndex) = true
        · rw [if_pos ho]
          rw [Bool.and_eq_true, bne_iff_ne] at ho
          exact ⟨fun _ => Or.inr (Or.inl ho), fun _ => hid⟩
        · have hno2 : ¬ (k.attrib.ra.isMcast = true
              ∧ sec.dot118021XGrpKeyid ≠ k.attrib.keyIndex) := by
            intro h
            exact ho (by rw [Bool.and_eq_true, bne_iff_ne]; exact h)
          rw [if_neg ho]
          by_cases hl : decryptLength k < 8
          · rw [if_pos hl]
            refine ⟨False.elim, ?_⟩
            rintro (h | h | h)
            · exact hno h
            · exact hno2 h
            · omega
          · rw [if_neg hl]
            by_cases hm : maxMsgSize < Ccmp.adjustHdrlen (k.buf.shift k.rxData) k.attrib.hdrlen
                + (decryptLength k).toNat + 8
            · rw [if_pos hm]
              refine ⟨False.elim, ?_⟩
              rintro (h | h | h)
              · exact hno h
              · exact hno2 h
              · omega
            · rw [if_neg hm]
              refine ⟨fun _ => Or.inr (Or.inr ⟨by omega, by omega⟩), fun _ => ?_⟩
              -- the comparison of `aes_decipher` is the one that is asked for
              cases hi : (Ccmp.aesDecipher aes (rxKey { sec with hwDecrypted := false } psta k)
                  message k.attrib.hdrlen (k.buf.shift k.rxData) (decryptLength k).toNat).ok with
              | true =>
                  refine ⟨psta, rfl, ?_⟩
                  rw [Mem.shift_onFrom]
                  exact Ccmp.micRight_of_ok hh (by omega) (by omega) hi
              | false => exact hid

end

/-- **Exactly when only integrity-checked frames pass software decryption.** For every
block cipher, driver state and received frame with a software cipher. -/
theorem decryptor_checks_iff (aes : AesKey → Block → Block) {sec : SecurityPriv}
    {stainfo : Option StaInfo} {message : Mem} {f : RecvFrame} (hc : f.attrib.encrypt.Software)
    (hsw : swDecrypts sec (readKeyIndex f) = true) (hh : 24 ≤ f.attrib.hdrlen) :
    OnlyCheckedPass aes sec stainfo message f ↔ ChecksSoundly sec stainfo (readKeyIndex f) := by
  have hk := readKeyIndex_encrypt f
  unfold ChecksSoundly
  rcases hc with h | h | h | h
  · rw [onlyCheckedPass_wep hsw (Or.inl h), hk, h]
  · rw [onlyCheckedPass_wep hsw (Or.inr h), hk, h]
  · rw [onlyCheckedPass_tkip hsw h, hk, h]
  · rw [onlyCheckedPass_aes hsw h hh, hk, h]

/-- A data frame of 24 + 4 + `n` bytes under cipher `c`, all zero behind the header. -/
def sampleRx (c : Cipher) (n : Nat) : RecvFrame where
  id := 0
  len := 24 + c.ivLen + n
  rxHead := 0
  rxData := 8
  rxTail := 32 + c.ivLen + n
  rxEnd := 1664
  attrib := { hdrlen := 24, encrypt := c, ivLen := c.ivLen, icvLen := c.icvLen, privacy := true }

/-- The driver and the peer, with nothing set. -/
def sampleSec : SecurityPriv := {}

def samplePeer : StaInfo := {}

theorem decryptor_checks_iff_sample :
    swDecrypts sampleSec (readKeyIndex (sampleRx .tkip 12)) = true
      ∧ OnlyCheckedPass (fun _ b => b) sampleSec (some samplePeer) (fun _ => 0)
          (sampleRx .tkip 12) := by
  have hsw : swDecrypts sampleSec (readKeyIndex (sampleRx .tkip 12)) = true := rfl
  have hlen : 0 ≤ decryptLength (readKeyIndex (sampleRx .tkip 12)) := by decide
  have hsound : ChecksSoundly sampleSec (some samplePeer) (readKeyIndex (sampleRx .tkip 12)) := by
    unfold ChecksSoundly
    rw [readKeyIndex_encrypt]
    exact Or.inr hlen
  have hcipher : (sampleRx .tkip 12).attrib.encrypt.Software := Or.inr (Or.inr (Or.inl rfl))
  refine ⟨hsw, ?_⟩
  rw [decryptor_checks_iff _ hcipher hsw (Nat.le_refl 24)]
  exact hsound

/-- A WEP key. -/
def sampleWepSec : SecurityPriv :=
  { dot11DefKeylen := fun _ => 5
    dot11DefKey := fun _ i => [0x4b, 0x65, 0x79, 0x31, 0x32].getD i 0 }

/-- Eight zero bytes do not decrypt to a payload and its ICV, and the frame passes all
the same. -/
theorem wep_passes_unchecked :
    ¬ ∀ (sec : SecurityPriv) (f : RecvFrame), f.attrib.encrypt.Software →
      swDecrypts sec (readKeyIndex f) = true → 24 ≤ f.attrib.hdrlen →
      OnlyCheckedPass (fun _ b => b) sec (some samplePeer) (fun _ => 0) f := by
  intro h
  have hsw : swDecrypts sampleWepSec (readKeyIndex (sampleRx .wep40 8)) = true := rfl
  have hp := h sampleWepSec (sampleRx .wep40 8) (Or.inl rfl) hsw (by decide)
  rw [onlyCheckedPass_wep hsw (Or.inl rfl)] at hp
  have hbad : icvRight (rc4Open (rxWepKey sampleWepSec (readKeyIndex (sampleRx .wep40 8)))
      (readKeyIndex (sampleRx .wep40 8)) 8) 8 = false := by decide +kernel
  have hgood : icvRight (rc4Open (rxWepKey sampleWepSec (readKeyIndex (sampleRx .wep40 8)))
      (readKeyIndex (sampleRx .wep40 8)) 8) 8 = true := hp.2
  rw [hbad] at hgood
  exact absurd hgood (by decide)

end Rtl8812au
