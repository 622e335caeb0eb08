import Rtl8812au.Wifi
import Mathlib.Logic.Function.Basic

/-!
# The access control list

`rtw_acl_add_sta`, `rtw_acl_remove_sta` and `rtw_set_macaddr_acl` of `core/rtw_ap.c`, what
`start_ap_mode` and `stop_ap_mode` do to the list, and `rtw_access_ctrl` of `core/rtw_sta_mgt.c`. The
nodes are an array; the queue is the indices of those that are linked, in their order.
-/

namespace Rtl8812au.Acl

/-- `NUM_ACL`. -/
abbrev numAcl : Nat := 16

/-- `struct rtw_wlan_acl_node`, without its link. -/
structure AclNode where
  addr : MacAddr
  valid : Bool

/-- `struct wlan_acl_pool`. -/
structure AclPool where
  mode : Int
  num : Int
  aclnode : Fin numAcl → AclNode
  aclNodeQ : List (Fin numAcl)

namespace AclPool

/-- The search that `rtw_acl_add_sta` and `rtw_access_ctrl` make: a valid node in the queue with this
address. -/
def search (s : AclPool) (addr : MacAddr) : Bool :=
  s.aclNodeQ.any fun i => decide ((s.aclnode i).addr = addr) && (s.aclnode i).valid

/-- A free node takes the address and is linked at the tail. -/
def link (s : AclPool) (i : Fin numAcl) (addr : MacAddr) : AclPool :=
  { s with
    aclnode := Function.update s.aclnode i ⟨addr, true⟩
    aclNodeQ := s.aclNodeQ ++ [i]
    num := s.num + 1 }

/-- A node is freed and unlinked. -/
def unlink (s : AclPool) (i : Fin numAcl) : AclPool :=
  { s with
    aclnode := Function.update s.aclnode i { s.aclnode i with valid := false }
    aclNodeQ := s.aclNodeQ.erase i
    num := s.num - 1 }

/-- One turn over a node of the queue: it is freed if it is valid and its address is one of `p`. -/
def purgeTurn (p : MacAddr → Bool) (s : AclPool) (i : Fin numAcl) : AclPool :=
  if p (s.aclnode i).addr ∧ (s.aclnode i).valid then s.unlink i else s

/-- The walk over the queue; the next node is taken before the one at hand is unlinked. -/
def purge (p : MacAddr → Bool) (s : AclPool) : AclPool := s.aclNodeQ.foldl (purgeTurn p) s

end AclPool

/-- `rtw_set_macaddr_acl`. -/
def rtwSetMacaddrAcl (mode : Int) (s : AclPool) : AclPool := { s with mode := mode }

/-- `rtw_acl_add_sta`, with what it returns. -/
def rtwAclAddSta (addr : MacAddr) (s : AclPool) : AclPool × Int :=
  if (numAcl : Int) - 1 < s.num then (s, -1)
  else if s.search addr then (s, 0)
  else
    match (List.finRange numAcl).find? fun i => !(s.aclnode i).valid with
    | some i => (s.link i addr, 0)
    | none => (s, 0)

/-- `rtw_acl_remove_sta`; the broadcast address stands for every one. -/
def rtwAclRemoveSta (addr : MacAddr) (s : AclPool) : AclPool :=
  s.purge fun a => decide (a = addr) || decide (addr = .bcast)

/-- `stop_ap_mode`. -/
def stopApMode (s : AclPool) : AclPool := s.purge fun _ => true

/-- `start_ap_mode`. -/
def startApMode (s : AclPool) : AclPool :=
  { mode := 0, num := 0, aclnode := fun i => { s.aclnode i with valid := false }, aclNodeQ := [] }

/-- `rtw_access_ctrl`. -/
def rtwAccessCtrl (macAddr : MacAddr) (s : AclPool) : Bool :=
  if s.mode = 1 then !s.search macAddr
  else if s.mode = 2 then s.search macAddr
  else true

/-- What is done to the list once the access point has started. -/
inductive AclOp where
  | add (addr : MacAddr)
  | remove (addr : MacAddr)
  | setMode (mode : Int)
  | stop

/-- What an operation makes of the list. -/
def AclOp.run (s : AclPool) : AclOp → AclPool
  | .add addr => (rtwAclAddSta addr s).1
  | .remove addr => rtwAclRemoveSta addr s
  | .setMode mode => rtwSetMacaddrAcl mode s
  | .stop => stopApMode s

end Rtl8812au.Acl
