import Rtl8812au.Bridge.Rewrite

/-!
# PPPoE discovery in the bridge

The PPPoE branch of `nat25_db_handle` of `core/rtw_br_ext.c` without its database, with
`__nat25_add_pppoe_tag` and `skb_pull_and_merge`. The relay tag of a request gets the address of the
client in front of what it holds, and that of a reply loses it. The host is little-endian.
-/

namespace Rtl8812au.Nat25

/-- A `struct sk_buff` with the room behind its data. -/
structure RoomySkb extends Skb where
  tailroom : Nat

/-- Where `code` and `sid` of the PPPoE header stand. -/
abbrev phCode : Nat := 15
abbrev phSid : Nat := 16

/-- `MAGIC_CODE_LEN` and `RTL_RELAY_TAG_LEN`, the length of an address. -/
abbrev magicCodeLen : Nat := 2
abbrev rtlRelayTagLen : Nat := 6

/-- `PTT_RELAY_SID` and `MAGIC_CODE`. -/
abbrev pttRelaySid : Nat := 0x0110
abbrev magicCode : Nat := 0x8186

/-- `PADI_CODE`, `PADO_CODE`, `PADR_CODE`, `PADS_CODE`. -/
abbrev padiCode : UInt8 := 0x09
abbrev padoCode : UInt8 := 0x07
abbrev padrCode : UInt8 := 0x19
abbrev padsCode : UInt8 := 0x65

/-- `__nat25_find_pppoe_tag`. Every turn goes on by a header at least, so the turns are enough. -/
def nat25FindPppoeTag (m : Mem) (type : Nat) : Option Nat :=
  match Loop.run (findPppoeTagTurn m type) (m.be16 phLength + 1) phTag with
  | some (.done r) => r
  | _ => none

/-- `__nat25_add_pppoe_tag`, with the tag in a buffer of its own: `none` for -1. `tag_len` is taken as the
host reads it. -/
def nat25AddPppoeTag (skb : RoomySkb) (tag : Mem) : Option RoomySkb :=
  let dataLen := tag.le16 2 + tagHdrLen
  if skb.tailroom < dataLen then none
  else
    let n := skb.data.be16 phLength
    let data := skb.data.copy (phTag + dataLen) skb.data phTag n
    let data := data.write phLength (netBytes (n + dataLen))
    some
      { data := data.copy phTag tag 0 dataLen
        len := skb.len + dataLen
        tailroom := skb.tailroom - dataLen }

/-- `skb_pull_and_merge`: `none` for -1. -/
def skbPullAndMerge (skb : RoomySkb) (src len : Nat) : Option RoomySkb :=
  if skb.len < src + len ∨ skb.len < len then none
  else
    some
      { data := skb.data.copy src skb.data (src + len) (skb.len - (src + len))
        len := skb.len - len
        tailroom := skb.tailroom + len }

/-- `ph->length` less `n`, in 16 bits. -/
def lessLength (skb : RoomySkb) (n : Nat) : RoomySkb :=
  { skb with data := skb.data.write phLength (netBytes (skb.data.be16 phLength + 2 ^ 16 - n)) }

/-! ## The two directions -/

/-- What `_adapter` has for PPPoE. -/
structure PppoeInfo where
  addPppoeTag : Bool
  connectionInProgress : Nat
  pppoeAddr : MacAddr

/-- `WAIT_TIME_PPPOE`. -/
def waitTimePppoe : Nat := 5

/-- The relay tag is put together in `tag_buf`, of which the old value is there already, and added. -/
def putRelayTag (skb : RoomySkb) (tagBuf : Mem) (oldTagLen : Nat) : Int × RoomySkb :=
  let tagLen := magicCodeLen + rtlRelayTagLen + oldTagLen
  let tag := tagBuf.write 0
    (netBytes pttRelaySid ++ (netBytes tagLen ++ (netBytes magicCode ++ skb.data.read 6 6)))
  match nat25AddPppoeTag skb tag with
  | none => (-1, skb)
  | some skb => (0, skb)

/-- The old relay tag is copied to `tag_buf` and taken out. -/
def insertRelayTag (skb : RoomySkb) (tagBuf : Mem) : Int × RoomySkb :=
  match nat25FindPppoeTag skb.data pttRelaySid with
  | none => putRelayTag skb tagBuf 0
  | some old =>
    let oldTagLen := skb.data.be16 (old + 2)
    if 40 < oldTagLen + tagHdrLen + magicCodeLen + rtlRelayTagLen then (-1, skb)
    else
      let tagBuf := tagBuf.copy 12 skb.data (old + tagHdrLen) oldTagLen
      match skbPullAndMerge skb old (tagHdrLen + oldTagLen) with
      | none => (-1, skb)
      | some skb => putRelayTag (lessLength skb (tagHdrLen + oldTagLen)) tagBuf oldTagLen

/-- `nat25_db_handle(NAT25_INSERT)` for a PPPoE frame. `tagBuf` is what the stack holds. -/
def pppoeInsert (p : PppoeInfo) (skb : RoomySkb) (tagBuf : Mem) : Int × PppoeInfo × RoomySkb :=
  let sa := MacAddr.ofMem skb.data 6
  if skb.data.be16 phSid = 0 then
    if skb.data phCode = padiCode ∨ skb.data phCode = padrCode then
      if p.addPppoeTag then
        let r := insertRelayTag skb tagBuf
        (r.1, p, r.2)
      else if p.connectionInProgress ≠ 0 ∧ sa ≠ p.pppoeAddr then (-2, p, skb)
      else
        let addr := if p.connectionInProgress = 0 then sa else p.pppoeAddr
        (0, { p with pppoeAddr := addr, connectionInProgress := waitTimePppoe }, skb)
    else (-1, p, skb)
  else if p.addPppoeTag = false ∧ p.connectionInProgress ≠ 0 ∧ sa = p.pppoeAddr then
    (0, { p with connectionInProgress := 0 }, skb)
  else (0, p, skb)

/-- The address of the client is taken out of the relay tag, and the tag with it if that is all it
holds. -/
def lookupRelayTag (skb : RoomySkb) : Int × RoomySkb :=
  match nat25FindPppoeTag skb.data pttRelaySid with
  | none => (-1, skb)
  | some ptr =>
    let tagLen := skb.data.be16 (ptr + 2)
    if skb.data.be16 ptr ≠ pttRelaySid ∨ tagLen < magicCodeLen + rtlRelayTagLen then (-1, skb)
    else if skb.data.be16 (ptr + tagHdrLen) ≠ magicCode then (-1, skb)
    else
      let skb := { skb with data := skb.data.copy 0 skb.data (ptr + tagHdrLen + magicCodeLen) 6 }
      let offset := if magicCodeLen + rtlRelayTagLen < tagLen then tagHdrLen else 0
      let cut := tagHdrLen + magicCodeLen + rtlRelayTagLen - offset
      match skbPullAndMerge skb (ptr + offset) cut with
      | none => (-1, skb)
      | some skb =>
        let skb := lessLength skb cut
        if 0 < offset then
          (0, { skb with data :=
            skb.data.write (ptr + 2) (netBytes (tagLen - magicCodeLen - rtlRelayTagLen)) })
        else (0, skb)

/-- `nat25_db_handle(NAT25_LOOKUP)` for a PPPoE frame. What the database says of a session is left out. -/
def pppoeLookup (p : PppoeInfo) (skb : RoomySkb) : Int × PppoeInfo × RoomySkb :=
  if skb.data phCode = padoCode ∨ skb.data phCode = padsCode then
    if p.addPppoeTag then
      let r := lookupRelayTag skb
      (r.1, p, r.2)
    else if p.connectionInProgress = 0 then (-1, p, skb)
    else
      (0, { p with connectionInProgress := waitTimePppoe },
        { skb with data := skb.data.write 0 p.pppoeAddr.bytes })
  else if skb.data.be16 phSid ≠ 0 then (0, p, skb)
  else (-1, p, skb)

end Rtl8812au.Nat25
