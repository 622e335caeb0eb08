import Mathlib.Logic.Function.Iterate
import Rtl8812au.Hal.Llt

/-!
# A list and a ring

What the table is after `InitLLTTable8812A`: from page 0 the links go through the pages below the boundary in
order and then to the end mark, and the pages from the boundary on are one ring.
-/

namespace Rtl8812au

variable {δ : Type} {chip : LltChip δ}

/-- The entry of the table a word is about, and what it becomes. -/
def lltEntry (w : Nat) : UInt8 × UInt8 := (UInt8.ofNat (w >>> 8), UInt8.ofNat w)

/-- What a page is linked to. -/
def lltLink (bndy i : Nat) : Nat := if i + 1 = bndy then 0xFF else if i = 255 then bndy else i + 1

theorem lltWord_eq (address data : Nat) :
    lltWord address data = 2 ^ 30 * 1 + (2 ^ 8 * (address % 256) + data % 256) := by
  have hdata : data % 256 < 2 ^ 8 := Nat.mod_lt _ (by decide)
  have hboth : 2 ^ 8 * (address % 256) + data % 256 < 2 ^ 30 := by omega
  have hmask (n : Nat) : n &&& 0xFF = n % 256 := Nat.and_two_pow_sub_one_eq_mod n 8
  unfold lltWord
  rw [hmask, hmask, Nat.shiftLeft_eq, Nat.mul_comm _ (2 ^ 8), ← Nat.two_pow_add_eq_or_of_lt hdata, Nat.or_comm,
    Nat.two_pow_add_eq_or_of_lt hboth]
  rfl

theorem lltEntry_lltWord (address data : Nat) :
    lltEntry (lltWord address data) = (UInt8.ofNat address, UInt8.ofNat data) := by
  have hword := lltWord_eq address data
  refine Prod.ext (UInt8.toNat_inj.mp ?_) (UInt8.toNat_inj.mp ?_)
  · show (UInt8.ofNat (lltWord address data >>> 8)).toNat = (UInt8.ofNat address).toNat
    rw [UInt8.toNat_ofNat', UInt8.toNat_ofNat', Nat.shiftRight_eq_div_pow]
    omega
  · show (UInt8.ofNat (lltWord address data)).toNat = (UInt8.ofNat data).toNat
    rw [UInt8.toNat_ofNat', UInt8.toNat_ofNat']
    omega

/-! ## The words -/

/-- The words for all pages are those of the two loops and of the two ends. -/
theorem lltWords_eq {bndy n : Nat} (hpos : 0 < bndy) (hle : bndy ≤ n) (hn : n = 255) :
    (List.range' 0 (n + 1)).map (fun i => lltWord i (lltLink bndy i))
      = (List.range' 0 (bndy - 1)).map (fun i => lltWord i (i + 1))
        ++ ([lltWord (bndy - 1) 0xFF]
          ++ ((List.range' bndy (n - bndy)).map (fun i => lltWord i (i + 1)) ++ [lltWord n bndy])) := by
  have hrange : List.range' 0 (n + 1)
      = List.range' 0 (bndy - 1) ++ (List.range' (bndy - 1) 1 ++ (List.range' bndy (n - bndy) ++ List.range' n 1)) := by
    have h3 := List.range'_append_1 (s := bndy) (m := n - bndy) (n := 1)
    have h2 := List.range'_append_1 (s := bndy - 1) (m := 1) (n := n - bndy + 1)
    have h1 := List.range'_append_1 (s := 0) (m := bndy - 1) (n := 1 + (n - bndy + 1))
    rw [show bndy + (n - bndy) = n by omega] at h3
    rw [show bndy - 1 + 1 = bndy by omega] at h2
    rw [show 0 + (bndy - 1) = bndy - 1 by omega, show bndy - 1 + (1 + (n - bndy + 1)) = n + 1 by omega] at h1
    rw [h3, h2, h1]
  have hbefore : ∀ i ∈ List.range' 0 (bndy - 1), lltWord i (lltLink bndy i) = lltWord i (i + 1) := by
    intro i hi
    have hlt := (List.mem_range'_1.mp hi).2
    unfold lltLink
    rw [if_neg (by omega), if_neg (by omega)]
  have hbehind : ∀ i ∈ List.range' bndy (n - bndy), lltWord i (lltLink bndy i) = lltWord i (i + 1) := by
    intro i hi
    obtain ⟨hge, hlt⟩ := List.mem_range'_1.mp hi
    unfold lltLink
    rw [if_neg (by omega), if_neg (by omega)]
  have hend : lltLink bndy (bndy - 1) = 0xFF := if_pos (by omega)
  have hlast : lltLink bndy n = bndy := by
    unfold lltLink
    rw [if_neg (by omega), if_pos hn]
  rw [hrange, List.map_append, List.map_append, List.map_append, List.map_congr_left hbefore,
    List.map_congr_left hbehind]
  show _ ++ ([lltWord (bndy - 1) (lltLink bndy (bndy - 1))] ++ (_ ++ [lltWord n (lltLink bndy n)])) = _
  rw [hend, hlast]

/-- What a whole initialisation tries to write. -/
theorem initLltTable_tried {txpktbufBndy : UInt8} (hpos : 0 < txpktbufBndy.toNat) (d : δ) :
    Tried ((List.range' 0 (lastEntryOfTxPktBuffer8812 + 1)).map fun i => lltWord i (lltLink txpktbufBndy.toNat i))
      (initLltTable chip txpktbufBndy d) := by
  have hlt : txpktbufBndy.toNat < 256 := txpktbufBndy.toNat_lt
  have hsub : sub32 txpktbufBndy.toNat 1 = txpktbufBndy.toNat - 1 := sub32_of_le hpos (by omega)
  rw [lltWords_eq hpos (by omega) rfl]
  unfold initLltTable
  simp only [hsub]
  exact (writeLoop_tried _ 0 d).andThen ((writeOne_tried _ _).andThen
    ((writeLoop_tried _ _ _).andThen (writeOne_tried _ _)))

/-! ## The table -/

/-- The table after some words were written. -/
def lltTable (m : UInt8 → UInt8) (words : List Nat) : UInt8 → UInt8 := store m (words.map lltEntry)

/-- **Every page is linked as it should be.** -/
theorem lltTable_link {txpktbufBndy : UInt8} (hpos : 0 < txpktbufBndy.toNat) {d d' : δ} {words : List Nat}
    (h : initLltTable chip txpktbufBndy d = (true, words, d')) (m : UInt8 → UInt8) {i : Nat} (hi : i < 256) :
    lltTable m words (UInt8.ofNat i) = UInt8.ofNat (lltLink txpktbufBndy.toNat i) := by
  have htried := @initLltTable_tried δ chip txpktbufBndy hpos d
  rw [h] at htried
  have hwords : words = (List.range' 0 (lastEntryOfTxPktBuffer8812 + 1)).map
      fun i => lltWord i (lltLink txpktbufBndy.toNat i) := htried.whole rfl
  have hentries : words.map lltEntry = (List.range' 0 (lastEntryOfTxPktBuffer8812 + 1)).map
      fun i => (UInt8.ofNat i, UInt8.ofNat (lltLink txpktbufBndy.toNat i)) := by
    rw [hwords, List.map_map]
    exact List.map_congr_left fun i _ => lltEntry_lltWord _ _
  unfold lltTable
  rw [hentries]
  refine store_map_range (g := fun i => UInt8.ofNat (lltLink txpktbufBndy.toNat i)) (fun j k hj hk hjk => ?_) hi
  have hnat := congrArg UInt8.toNat hjk
  rw [UInt8.toNat_ofNat', UInt8.toNat_ofNat'] at hnat
  have hlast : lastEntryOfTxPktBuffer8812 = 255 := rfl
  omega

/-- **A list and a ring.** After an initialisation that succeeds, whatever was in the table before: the links
from page 0 go through the pages below the boundary one by one and then to the end mark; and those from the
boundary on never leave the pages from the boundary on, and come back after as many steps as there are. -/
theorem initLltTable_links {txpktbufBndy : UInt8} (hpos : 0 < txpktbufBndy.toNat) {d d' : δ} {words : List Nat}
    (h : initLltTable chip txpktbufBndy d = (true, words, d')) (m : UInt8 → UInt8) :
    (∀ i < txpktbufBndy.toNat, (lltTable m words)^[i] 0 = UInt8.ofNat i) ∧
      (lltTable m words)^[txpktbufBndy.toNat] 0 = 0xFF ∧
      ∀ k, (lltTable m words)^[k] txpktbufBndy
        = UInt8.ofNat (txpktbufBndy.toNat + k % (256 - txpktbufBndy.toNat)) := by
  have hlt : txpktbufBndy.toNat < 256 := txpktbufBndy.toNat_lt
  have hlink := fun {i : Nat} => lltTable_link hpos h m (i := i)
  have hchain : ∀ i < txpktbufBndy.toNat, (lltTable m words)^[i] 0 = UInt8.ofNat i := by
    intro i
    induction i with
    | zero => exact fun _ => rfl
    | succ i ih =>
        intro hi
        rw [Function.iterate_succ_apply', ih (by omega), hlink (by omega)]
        unfold lltLink
        rw [if_neg (by omega), if_neg (by omega)]
  have hring : ∀ n, txpktbufBndy.toNat + n = 256 → 0 < n → ∀ k, (lltTable m words)^[k] txpktbufBndy
      = UInt8.ofNat (txpktbufBndy.toNat + k % n) := by
    intro n hn hn0 k
    induction k with
    | zero => rw [Function.iterate_zero_apply, Nat.zero_mod, Nat.add_zero, UInt8.ofNat_toNat]
    | succ k ih =>
        have hmod : k % n < n := Nat.mod_lt _ hn0
        have hstep := hlink (i := txpktbufBndy.toNat + k % n) (by omega)
        rw [Function.iterate_succ_apply', ih, hstep, ← Nat.mod_add_mod k n 1]
        unfold lltLink
        rw [if_neg (by omega)]
        by_cases hend : txpktbufBndy.toNat + k % n = 255
        · have hwrap : k % n + 1 = n := by omega
          rw [if_pos hend, hwrap, Nat.mod_self, Nat.add_zero]
        · have hinside : k % n + 1 < n := by omega
          rw [if_neg hend, Nat.mod_eq_of_lt hinside, Nat.add_assoc]
  refine ⟨hchain, ?_, hring _ (by omega) (by omega)⟩
  obtain ⟨i, hi⟩ : ∃ i, txpktbufBndy.toNat = i + 1 := ⟨_, (Nat.succ_pred_eq_of_pos hpos).symm⟩
  rw [hi, Function.iterate_succ_apply', hchain i (by omega), hlink (by omega)]
  unfold lltLink
  rw [if_pos hi.symm]
  rfl

/-- Where no poll is in vain the initialisation succeeds. -/
theorem initLltTable_ok (hidle : ∀ d, lltOpValue (chip.read32 d).1 = 0) (txpktbufBndy : UInt8) (d : δ) :
    (initLltTable chip txpktbufBndy d).1 = true := by
  have hwrite : ∀ (d : δ) (w : Nat), (lltWrite chip d w).1 = true := by
    intro d w
    unfold lltWrite lltPolling
    simp only [hidle, if_true]
  have hone : ∀ (w : Nat) (d : δ), (writeOne (lltWrite chip) w d).1 = true := fun w d => hwrite d w
  unfold initLltTable
  simp only [writeLoop_ok hwrite, hone, if_true]

/-- A chip whose polls end at once; what is written to it does not matter. -/
def sampleLltChip : LltChip Unit := ⟨fun _ _ => (), fun _ => (0, ())⟩

/-- Two pages in the list. -/
theorem initLltTable_links_sample : ∃ words d', initLltTable sampleLltChip 2 () = (true, words, d') ∧
    (∀ i < (2 : UInt8).toNat, (lltTable (fun _ => 0) words)^[i] 0 = UInt8.ofNat i) ∧
    (lltTable (fun _ => 0) words)^[(2 : UInt8).toNat] 0 = 0xFF ∧
    ∀ k, (lltTable (fun _ => 0) words)^[k] 2 = UInt8.ofNat ((2 : UInt8).toNat + k % (256 - (2 : UInt8).toNat)) := by
  have hidle : lltOpValue 0 = 0 := by decide
  have hok := @initLltTable_ok Unit sampleLltChip (fun _ => hidle) 2 ()
  obtain ⟨ok, words, d', hrun⟩ : ∃ ok words d', initLltTable sampleLltChip 2 () = (ok, words, d') := ⟨_, _, _, rfl⟩
  rw [hrun] at hok
  have hdone : initLltTable sampleLltChip 2 () = (true, words, d') := by rw [hrun, show ok = true from hok]
  exact ⟨words, d', hdone, initLltTable_links (by decide) hdone fun _ => 0⟩

end Rtl8812au
