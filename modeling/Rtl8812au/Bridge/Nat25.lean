import Rtl8812au.Lib.Chained
import Rtl8812au.Wifi

/-!
# Bridge address translation

The database of `core/rtw_br_ext.c` and the short cut in front of it, for IPv4 frames without a VLAN
tag: `rtw_br_client_tx` of `core/rtw_xmit.c` enters the source of a transmitted frame,
`nat25_handle_frame` replaces the destination of a received one, `nat25_db_expire` takes out what is
too old. An entry is known by its address in memory. `jiffies` is a number that does not wrap.
-/

namespace Rtl8812au.Nat25

/-- An IPv4 address, in the byte order of the header. -/
structure Ip where
  b0 : UInt8
  b1 : UInt8
  b2 : UInt8
  b3 : UInt8
  deriving Repr, DecidableEq

def Ip.zero : Ip := ⟨0, 0, 0, 0⟩

/-- `networkAddr[MAX_NETWORK_ADDR_LEN]`: the type of the network, then its address. -/
abbrev NetworkAddr := List UInt8

/-- `__nat25_generate_ipv4_network_addr`. -/
def generateIpv4NetworkAddr (ip : Ip) : NetworkAddr :=
  [1, 0, 0, 0, 0, 0, 0, ip.b0, ip.b1, ip.b2, ip.b3, 0, 0, 0, 0, 0, 0]

/-- The bytes from `lo` to `hi`, folded with exclusive or. -/
def xorBytes (n : NetworkAddr) (lo hi : Nat) : UInt8 :=
  ((n.drop lo).take (hi + 1 - lo)).foldl (· ^^^ ·) 0

/-- `__nat25_network_hash`, with `NAT25_HASH_SIZE` 16. -/
def networkHash (n : NetworkAddr) : Fin 16 :=
  Fin.ofNat 16 (UInt8.toNat (match n.getD 0 0 with
    | 1 => xorBytes n 7 10
    | 3 => xorBytes n 1 10
    | 4 => xorBytes n 1 3
    | 5 => xorBytes n 0 8
    | 2 => xorBytes n 1 16
    | _ => xorBytes n 0 16))

/-- `struct nat25_network_db_entry`. The chains are held by value. -/
structure DbEntry where
  ptr : Nat
  useCount : BitVec 32
  macAddr : MacAddr
  ageingTimer : Nat
  networkAddr : NetworkAddr
  deriving Repr, DecidableEq

/-- What `_adapter` has for the bridge. `nextPtr` is what the allocator hands out next, `brDevAddr`
the address `netdev_br_init` finds. -/
structure Bridge where
  nethash : Fin 16 → List DbEntry
  nextPtr : Nat
  scdbMac : MacAddr
  scdbIp : Ip
  scdbEntry : Option Nat
  brMac : MacAddr
  brIp : Ip
  brDevAddr : MacAddr
  brPort : Bool
  myHwaddr : MacAddr

/-- The unit of `jiffies`. -/
structure Clock where
  hz : Nat
  pos : 0 < hz

/-- `NAT25_AGEING_TIME*HZ`. -/
def Clock.ageing (c : Clock) : Nat := 300 * c.hz

/-- What the functions read of an IPv4 frame; `len` is `skb->len`. -/
structure IpFrame where
  da : MacAddr
  sa : MacAddr
  saddr : Ip
  daddr : Ip
  ihl : Nat
  len : Nat
  deriving Repr, DecidableEq

/-- The check of `nat25_db_handle`. -/
def IpFrame.malformed (f : IpFrame) : Bool := f.len ≤ f.ihl * 4

/-- `__nat25_has_expired`. -/
def DbEntry.hasExpired (c : Clock) (now : Nat) (e : DbEntry) : Bool :=
  decide (e.ageingTimer + c.ageing ≤ now)

namespace Bridge

variable (c : Clock) (now : Nat) (b : Bridge)

/-- The first entry of the chain with the address. -/
def findNet (n : NetworkAddr) : Option DbEntry :=
  Chained.find DbEntry.networkAddr networkHash b.nethash n

/-- `scdb_findEntry`. The MAC address it is given is not used. -/
def scdbFindEntry (ip : Ip) : Option DbEntry := b.findNet (generateIpv4NetworkAddr ip)

/-- A write to the entry at `p`. -/
def write (p : Nat) (f : DbEntry → DbEntry) : Bridge :=
  { b with nethash := Chained.walk (fun e => some (if e.ptr = p then f e else e)) b.nethash }

/-- `ageing_timer = jiffies`. -/
def touch (p : Nat) : Bridge := b.write p fun e => { e with ageingTimer := now }

/-- `__nat25_db_network_insert`; the allocation succeeds. -/
def networkInsert (mac : MacAddr) (n : NetworkAddr) : Bridge :=
  match b.findNet n with
  | some e => b.write e.ptr fun e => { e with macAddr := mac, ageingTimer := now }
  | none =>
    { b with
      nethash := Chained.link DbEntry.networkAddr networkHash b.nethash
        { ptr := b.nextPtr, useCount := 1, macAddr := mac, ageingTimer := now, networkAddr := n }
      nextPtr := b.nextPtr + 1 }

/-- `nat25_db_handle(NAT25_INSERT)`. -/
def dbInsert (f : IpFrame) : Bridge × Int :=
  if f.malformed then (b, -1)
  else if f.saddr = .zero then (b, 0)
  else (b.networkInsert now f.sa (generateIpv4NetworkAddr f.saddr), 0)

/-- The entry that makes the frame pass at once: the short cut is the sender's, and the sender is not
the bridge itself. -/
def shortCut (f : IpFrame) : Option Nat :=
  if f.da.isMcast = false ∧ b.brPort = true ∧ f.sa ≠ b.brMac ∧ b.scdbMac = f.sa then b.scdbEntry
  else none

/-- The short cut follows the sender; whether the frame is still to be entered. -/
def scdbUpdate (f : IpFrame) : Bridge × Bool :=
  if b.scdbMac ≠ f.sa then
    match b.scdbFindEntry f.saddr with
    | some e =>
      let b := { b with scdbEntry := some e.ptr, scdbMac := f.sa, scdbIp := f.saddr }
      (b.touch now e.ptr, false)
    | none => ({ b with scdbEntry := none }, true)
  else
    match b.scdbEntry with
    | some p => (b.touch now p, false)
    | none => ({ b with scdbMac := .zero, scdbIp := .zero }, true)

/-- `rtw_br_client_tx`. `NAT25_CHECK` answers -1 to an IP frame, so none is copied, and
`dhcp_flag_bcast` changes nothing that is kept here. -/
def clientTx (f : IpFrame) : Bridge × IpFrame × Int :=
  match b.shortCut f with
  | some p => (b.touch now p, { f with sa := b.myHwaddr }, 0)
  | none =>
    let b := if f.sa = b.brMac then { b with brIp := f.saddr } else b
    match b.scdbUpdate now f with
    | (b, false) => (b, { f with sa := b.myHwaddr }, 0)
    | (b, true) =>
      match b.dbInsert now f with
      | (b, res) =>
        if res < 0 then (b, f, if res = -2 then -1 else 0)
        else (b, { f with sa := b.myHwaddr }, 0)

/-- `__nat25_db_network_lookup_and_replace`: whether there is an entry, also an expired one. -/
def lookupAndReplace (f : IpFrame) (n : NetworkAddr) : Bridge × IpFrame × Bool :=
  match b.findNet n with
  | some e =>
    if e.hasExpired c now then (b, f, true)
    else (b.write e.ptr fun e => { e with useCount := e.useCount + 1 }, { f with da := e.macAddr }, true)
  | none => (b, f, false)

/-- `nat25_db_handle(NAT25_LOOKUP)`. -/
def dbLookup (f : IpFrame) : Bridge × IpFrame × Int :=
  if f.malformed then (b, f, -1)
  else
    match b.lookupAndReplace c now f (generateIpv4NetworkAddr f.daddr) with
    | (b, f, true) => (b, f, 0)
    | (b, f, false) =>
      if f.daddr.b3 = 0xff then (b, { f with da := .bcast }, 0)
      else
        let b := if b.brMac = .zero then { b with brMac := b.brDevAddr } else b
        (b, { f with da := b.brMac }, 0)

/-- `nat25_handle_frame`, with `nat25_disable` and `nat25sc_disable` 0. -/
def handleFrame (f : IpFrame) : Bridge × IpFrame × Int :=
  if f.da.isMcast then (b, f, 0)
  else if b.scdbIp = f.daddr then (b, { f with da := b.scdbMac }, 0)
  else b.dbLookup c now f

/-- The three fields of the short cut. -/
structure Scdb where
  mac : MacAddr
  ip : Ip
  entry : Option Nat

def Scdb.zero : Scdb := ⟨.zero, .zero, none⟩

/-- The walk of `nat25_db_expire` along one chain. -/
def expireChain : List DbEntry → Scdb → List DbEntry × Scdb
  | [], sc => ([], sc)
  | f :: g, sc =>
    if f.hasExpired c now then
      if f.useCount - 1 = 0 then
        expireChain g (if sc.entry = some f.ptr then .zero else sc)
      else
        let (g, sc) := expireChain g sc
        ({ f with useCount := f.useCount - 1 } :: g, sc)
    else
      let (g, sc) := expireChain g sc
      (f :: g, sc)

/-- `nat25_db_expire`. What is left of a chain does not depend on the short cut. -/
def dbExpire : Bridge :=
  let sc : Scdb := ⟨b.scdbMac, b.scdbIp, b.scdbEntry⟩
  let sc' := (List.finRange 16).foldl (fun sc i => (expireChain c now (b.nethash i) sc).2) sc
  { b with
    nethash := fun i => (expireChain c now (b.nethash i) sc).1
    scdbMac := sc'.mac
    scdbIp := sc'.ip
    scdbEntry := sc'.entry }

end Bridge

/-- What happens: a bridged host transmits, a frame is received, old entries are taken out, time
passes. -/
inductive Event where
  | tx (f : IpFrame)
  | rx (f : IpFrame)
  | expire
  | wait (d : Nat)

/-- The bridge with the time, and who last transmitted under an address and when. -/
structure World where
  br : Bridge
  now : Nat
  last : Ip → Option (MacAddr × Nat)

/-- One event. -/
def World.step (c : Clock) (w : World) : Event → World
  | .tx f =>
    { w with
      br := (w.br.clientTx w.now f).1
      last := Function.update w.last f.saddr (some (f.sa, w.now)) }
  | .rx f => { w with br := (w.br.handleFrame c w.now f).1 }
  | .expire => { w with br := w.br.dbExpire c w.now }
  | .wait d => { w with now := w.now + d }

/-- The start: nothing in the database, the adapter's fields cleared. -/
def World.start (myHwaddr brMac brDevAddr : MacAddr) (now : Nat) : World where
  br :=
    { nethash := fun _ => [], nextPtr := 0, scdbMac := .zero, scdbIp := .zero, scdbEntry := none,
      brMac, brIp := .zero, brDevAddr, brPort := true, myHwaddr }
  now := now
  last := fun _ => none

end Rtl8812au.Nat25
