import Rtl8812au.Lib.Reach
import Rtl8812au.Recv.Frame

/-!
# The station table

`struct sta_priv` as `core/rtw_sta_mgt.c` keeps it: `NUM_STA` entries, a queue of the free ones,
`NUM_STA` hash lists of those in use and a counter. An entry is linked into at most one hash list
by its `hash_list` node, so deleting the node takes the entry off whichever list has it.
-/

namespace Rtl8812au

/-- `wifi_mac_hash`. -/
def wifiMacHash (mac : MacAddr) : Fin numSta :=
  let x := mac.b0.toUInt32
  let x := (x <<< 2) ^^^ mac.b1.toUInt32
  let x := (x <<< 2) ^^^ mac.b2.toUInt32
  let x := (x <<< 2) ^^^ mac.b3.toUInt32
  let x := (x <<< 2) ^^^ mac.b4.toUInt32
  let x := (x <<< 2) ^^^ mac.b5.toUInt32
  let x := x ^^^ (x >>> 8)
  Fin.ofNat numSta (x &&& 31).toNat

/-- `struct sta_priv`, with the `hwaddr` of each entry. -/
structure StaTable where
  hwaddr : StaSlot → MacAddr
  freeStaQueue : List StaSlot
  staHash : Fin numSta → List StaSlot
  asocStaCount : Int

namespace StaTable

/-- `_rtw_init_sta_priv` on the zeroed buffer. -/
def initStaPriv : StaTable where
  hwaddr := fun _ => .zero
  freeStaQueue := List.finRange numSta
  staHash := fun _ => []
  asocStaCount := 0

variable (t : StaTable)

/-- `rtw_alloc_stainfo`: the head of the free queue goes to the tail of its hash list. The index is
below `NUM_STA` by its mask. -/
def allocStainfo (hwaddr : MacAddr) : StaTable × Option StaSlot :=
  match t.freeStaQueue with
  | [] => (t, none)
  | psta :: queue =>
    ({ hwaddr := fun s => if s = psta then hwaddr else t.hwaddr s
       freeStaQueue := queue
       staHash := fun i =>
         if i = wifiMacHash hwaddr then t.staHash i ++ [psta] else t.staHash i
       asocStaCount := t.asocStaCount + 1 }, some psta)

/-- `rtw_list_delete(&psta->hash_list)`. -/
def unlink (psta : StaSlot) : StaTable :=
  { t with staHash := fun i => (t.staHash i).filter (· != psta) }

/-- `rtw_free_stainfo`, as far as the table goes. -/
def freeStainfo (psta : StaSlot) : StaTable :=
  let t := t.unlink psta
  { t with asocStaCount := t.asocStaCount - 1, freeStaQueue := t.freeStaQueue ++ [psta] }

/-- `rtw_get_stainfo`. -/
def getStainfo (hwaddr : MacAddr) : Option StaSlot :=
  let addr := if hwaddr.isMcast then MacAddr.bcast else hwaddr
  (t.staHash (wifiMacHash addr)).find? fun s => t.hwaddr s = addr

/-- `rtw_init_bcmc_stainfo`. -/
def initBcmcStainfo : StaTable := (t.allocStainfo .bcast).1

/-- `free_sta_list` of `rtw_free_all_stainfo`: bucket by bucket, all but `pbcmc_stainfo`. -/
def freeStaList (pbcmc : Option StaSlot) : List StaSlot :=
  (List.finRange numSta).flatMap fun i => (t.staHash i).filter fun s => some s != pbcmc

/-- `rtw_free_all_stainfo`: the entries are unlinked first and freed in a second loop. -/
def freeAllStainfo : StaTable :=
  let pbcmc := t.getStainfo .bcast
  if t.asocStaCount = 1 then t
  else
    let l := t.freeStaList pbcmc
    l.foldl freeStainfo (l.foldl unlink t)

/-- The entry is in a hash list. -/
def Allocated (s : StaSlot) : Prop := ∃ i, s ∈ t.staHash i

instance (s : StaSlot) : Decidable (t.Allocated s) :=
  inferInstanceAs (Decidable (∃ i, s ∈ t.staHash i))

/-! ## Events -/

end StaTable

/-- What changes the table. -/
inductive TableEvent where
  | alloc (hwaddr : MacAddr)
  | free (s : StaSlot)
  | freeAll

/-- One event. A station is only allocated for an address that has none, and only an allocated
station other than the broadcast one is freed by itself. -/
def tableStep (t : StaTable) : TableEvent → Outcome StaTable
  | .alloc hwaddr => .done (if (t.getStainfo hwaddr).isNone then (t.allocStainfo hwaddr).1 else t)
  | .free s => .done (if t.Allocated s ∧ t.hwaddr s ≠ .bcast then t.freeStainfo s else t)
  | .freeAll => .done t.freeAllStainfo

end Rtl8812au
