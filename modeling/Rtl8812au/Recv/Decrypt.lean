import Rtl8812au.Adapter
import Rtl8812au.Security.Ccmp
import Rtl8812au.Security.Wep
import Rtl8812au.Security.Tkip

/-!
# Software decryption

`rtw_wep_decrypt`, `rtw_tkip_decrypt` and `rtw_aes_decrypt` of
`core/rtw_security.c`, and `decryptor` of `core/rtw_recv.c`, which chooses between
them. The payload length they start from is a signed difference; where it makes a
loop run outside the buffers the result is `overrun`, from which nothing follows.
-/

namespace Rtl8812au

/-- `length`: what is left of the frame behind the MAC header and the IV, a `sint`. -/
def decryptLength (f : RecvFrame) : Int :=
  (f.len : Int) - f.attrib.hdrlen - f.attrib.ivLen

/-- The address behind the MAC header and the IV. -/
def payloadAt (f : RecvFrame) : Nat := f.rxData + f.attrib.hdrlen + f.attrib.ivLen

/-- The `length` bytes at the payload decrypted with RC4. -/
def rc4Open (key : List UInt8) (f : RecvFrame) (length : Nat) : RecvFrame :=
  { f with
    buf := f.buf.write (payloadAt f)
      (arcfourEncrypt (arcfourInit key key.length) (f.buf.read (payloadAt f) length)).1 }

/-- The comparison of the last four bytes of the frame with the CRC of what is before
them. With less than four bytes there is nothing to take the CRC of. -/
def icvRight (f : RecvFrame) (length : Nat) : Bool :=
  f.buf.read (payloadAt f + length - 4) 4
    == le32Bytes (getcrc32 (f.buf.read (payloadAt f) (length - 4)))

/-- The WEP key for a received frame. -/
def rxWepKey (sec : SecurityPriv) (f : RecvFrame) : List UInt8 :=
  f.buf.read (f.rxData + f.attrib.hdrlen) 3
    ++ Mem.read (sec.dot11DefKey f.attrib.keyIndex).skey 0 (sec.dot11DefKeylen f.attrib.keyIndex)

/-- `rtw_wep_decrypt`: a wrong ICV is traced, and that is all. -/
def rtwWepDecrypt (sec : SecurityPriv) (f : RecvFrame) : Outcome RecvFrame :=
  let length := decryptLength f
  -- `arcfour_encrypt` takes it as a `u32`
  if length < 0 then .overrun
  else .done (rc4Open (rxWepKey sec f) f length.toNat)

/-- The key for a frame: the group key of its index, or the one of the station. -/
def rxKey (sec : SecurityPriv) (psta : StaInfo) (f : RecvFrame) : Keytype :=
  if f.attrib.ra.isMcast then sec.dot118021XGrpKey f.attrib.keyIndex else psta.dot118021xUncstKey

/-- `rtw_tkip_decrypt`; `stainfo` is what `rtw_get_stainfo` finds for the transmitter. -/
def rtwTkipDecrypt (sec : SecurityPriv) (stainfo : Option StaInfo) (f : RecvFrame) :
    Outcome (RecvFrame × Bool) :=
  match stainfo with
  | none => .done (f, false)
  | some psta =>
    if f.attrib.ra.isMcast && !sec.binstallGrpkey then .done (f, false)
    else
      let length := decryptLength f
      if length < 0 then .overrun
      else
        let key := Tkip.rc4Key (rxKey sec psta f) f.attrib.ta f.buf (f.rxData + f.attrib.hdrlen)
        let f := rc4Open key f length.toNat
        .done (f, icvRight f length.toNat)

section

variable (aes : AesKey → BlockMode.Block → BlockMode.Block)

/-- `rtw_aes_decrypt`; `message` is the static buffer of `aes_decipher`. Its loops run
over `plen - 8` bytes as a `uint`, and they use the buffer up to `hdrlen + plen + 8`
whether or not the frame was copied there. -/
def rtwAesDecrypt (sec : SecurityPriv) (stainfo : Option StaInfo) (message : Mem) (f : RecvFrame) :
    Outcome (RecvFrame × Mem × Bool) :=
  match stainfo with
  | none => .done (f, message, false)
  | some psta =>
    if f.attrib.ra.isMcast && !sec.binstallGrpkey then .done (f, message, false)
    else if f.attrib.ra.isMcast && sec.dot118021XGrpKeyid != f.attrib.keyIndex then
      .done (f, message, false)
    else
      let length := decryptLength f
      let pframe := f.buf.shift f.rxData
      if length < 8 then .overrun
      else if maxMsgSize < Ccmp.adjustHdrlen pframe f.attrib.hdrlen + length.toNat + 8 then .overrun
      else
        let r := Ccmp.aesDecipher aes (rxKey sec psta f) message f.attrib.hdrlen pframe length.toNat
        .done ({ f with buf := f.buf.onFrom f.rxData fun _ => r.pframe }, r.message, r.ok)

/-- What `decryptor` leaves: the frame it returns, the frame it frees, and the driver
state. -/
structure Decrypted where
  frame : Option RecvFrame
  freed : Option RecvFrame := none
  sec : SecurityPriv
  message : Mem

/-- `prxattrib->key_index` as `decryptor` reads it from the IV. Two bits are never more
than `WEP_KEYS`. -/
def readKeyIndex (f : RecvFrame) : RecvFrame :=
  if f.attrib.encrypt = .noPrivacy then f
  else
    let iv3 := f.buf (f.rxData + f.attrib.hdrlen + 3)
    { f with attrib := { f.attrib with keyIndex := (iv3.toNat >>> 6) &&& 3 } }

/-- `decryptor` decrypts in software. -/
def swDecrypts (sec : SecurityPriv) (f : RecvFrame) : Bool :=
  f.attrib.encrypt != .noPrivacy && (!f.attrib.bdecrypted || sec.swDecrypt)

/-- The `switch` of `decryptor`. -/
def swDecryptSwitch (sec : SecurityPriv) (stainfo : Option StaInfo) (message : Mem)
    (f : RecvFrame) : Outcome (RecvFrame × Mem × Bool) :=
  match f.attrib.encrypt with
  | .wep40 | .wep104 =>
    match rtwWepDecrypt sec f with
    | .overrun => .overrun
    | .hangs => .hangs
    | .done f => .done (f, message, true)
  | .tkip =>
    match rtwTkipDecrypt sec stainfo f with
    | .overrun => .overrun
    | .hangs => .hangs
    | .done (f, ok) => .done (f, message, ok)
  | .aes => rtwAesDecrypt aes sec stainfo message f
  | _ => .done (f, message, true)

/-- `decryptor`. -/
def decryptor (sec : SecurityPriv) (stainfo : Option StaInfo) (message : Mem) (f : RecvFrame) :
    Outcome Decrypted :=
  let f := readKeyIndex f
  if swDecrypts sec f then
    let sec := { sec with hwDecrypted := false }
    match swDecryptSwitch aes sec stainfo message f with
    | .overrun => .overrun
    | .hangs => .hangs
    | .done (f, message, true) =>
      .done { frame := some { f with attrib := { f.attrib with bdecrypted := true } }
              sec := sec, message := message }
    | .done (f, message, false) =>
      .done { frame := none, freed := some f, sec := sec, message := message }
  else
    let hw := f.attrib.bdecrypted && f.attrib.encrypt != .noPrivacy
      && (sec.busetkipkey || f.attrib.encrypt != .tkip)
    .done { frame := some { f with attrib := { f.attrib with bdecrypted := true } }
            sec := if hw then { sec with hwDecrypted := true } else sec
            message := message }

end

end Rtl8812au
