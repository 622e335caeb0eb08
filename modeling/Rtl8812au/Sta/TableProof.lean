import Mathlib.Data.Fintype.Sum
import Mathlib.Data.Fintype.Sigma
import Mathlib.Tactic.DeriveFintype
import Rtl8812au.Lib.Pool
import Rtl8812au.Sta.Table

/-!
# The hash lists are a finite map

The entries are a stock that is spread over the free queue and the hash lists. Every entry in a
list is in the list of its address, no address has two, and the counter is the number of entries
that are not free. So a lookup that walks one list finds exactly the entry with that address.

`rtw_free_all_stainfo` has its entries in hand between its two loops: they are in no list, and
still counted.
-/

namespace Rtl8812au

open Pool

namespace StaTable

/-- Where an entry can be. -/
inductive StaPlace where
  | free
  | bucket (i : Fin numSta)
  deriving DecidableEq, Fintype

/-- The entries of each place. -/
def contents (t : StaTable) : StaPlace → List StaSlot
  | .free => t.freeStaQueue
  | .bucket i => t.staHash i

/-- **The table is a finite map from addresses to entries**, and the counter counts. -/
structure IsMap (t : StaTable) : Prop where
  /-- an entry is free, or in the list of its address, and nowhere else -/
  place : ∀ s, (s ∈ t.freeStaQueue ∧ ∀ i, s ∉ t.staHash i)
    ∨ (s ∉ t.freeStaQueue ∧ ∀ i, s ∈ t.staHash i ↔ i = wifiMacHash (t.hwaddr s))
  /-- once -/
  once : t.freeStaQueue.Nodup ∧ ∀ i, (t.staHash i).Nodup
  count : t.asocStaCount = ∑ i, (t.staHash i).length
  /-- a lookup finds the one entry with the address, the broadcast entry for a group address -/
  get : ∀ a s, t.getStainfo a = some s ↔
    t.Allocated s ∧ t.hwaddr s = if a.isMcast then .bcast else a
  bcmc : ∃ s, t.getStainfo .bcast = some s
  /-- only the broadcast entry stays when all are freed -/
  freeAll : ∀ s, t.freeAllStainfo.Allocated s ↔ t.getStainfo .bcast = some s

/-- The books, with the entries that are out of every list in hand. -/
structure Books (hand : List StaSlot) (t : StaTable) : Prop where
  placed : Placed (List.finRange numSta) hand t.contents
  homed : ∀ i, ∀ s ∈ t.staHash i, wifiMacHash (t.hwaddr s) = i
  count : t.asocStaCount + t.freeStaQueue.length = numSta
  unique : ∀ s s', t.Allocated s → t.Allocated s' → t.hwaddr s = t.hwaddr s' → s = s'
  group : ∀ s, t.Allocated s → (t.hwaddr s).isMcast = true → t.hwaddr s = .bcast

section

variable {t : StaTable} {hand : List StaSlot} {s : StaSlot}

theorem getStainfo_eq_some (h : Books hand t) {a : MacAddr} :
    t.getStainfo a = some s ↔ t.Allocated s ∧ t.hwaddr s = if a.isMcast then .bcast else a := by
  unfold getStainfo
  dsimp only
  generalize (if a.isMcast then MacAddr.bcast else a) = addr
  constructor
  · intro hget
    have hmem := List.mem_of_find?_eq_some hget
    have haddr := List.find?_some hget
    exact ⟨⟨_, hmem⟩, of_decide_eq_true haddr⟩
  · rintro ⟨⟨i, hi⟩, haddr⟩
    -- the list of the address is the one the entry is in
    have hbucket : wifiMacHash addr = i := by
      rw [← haddr]
      exact h.homed i s hi
    rw [hbucket]
    cases hfind : (t.staHash i).find? fun s => decide (t.hwaddr s = addr) with
    | none =>
        have hno := List.find?_eq_none.mp hfind s hi
        exact absurd haddr (by simpa using hno)
    | some s' =>
        have hmem := List.mem_of_find?_eq_some hfind
        have haddr' := List.find?_some hfind
        rw [decide_eq_true_eq] at haddr'
        rw [h.unique s' s ⟨i, hmem⟩ ⟨i, hi⟩ (haddr'.trans haddr.symm)]

/-! ## Off a list and back to the free queue -/

theorem allocated_unlink (t : StaTable) (s s' : StaSlot) :
    (t.unlink s).Allocated s' ↔ t.Allocated s' ∧ s' ≠ s := by
  constructor
  · rintro ⟨i, hi⟩
    obtain ⟨hm, hne⟩ := List.mem_filter.mp hi
    exact ⟨⟨i, hm⟩, bne_iff_ne.mp hne⟩
  · rintro ⟨⟨i, hi⟩, hne⟩
    exact ⟨i, List.mem_filter.mpr ⟨hi, bne_iff_ne.mpr hne⟩⟩

theorem allocated_freeStainfo (t : StaTable) (s s' : StaSlot) :
    (t.freeStainfo s).Allocated s' ↔ t.Allocated s' ∧ s' ≠ s := allocated_unlink t s s'

/-- What is in hand or in a list is not free. -/
theorem contents_unlink_of_notMem (hs : s ∉ t.freeStaQueue) :
    (t.unlink s).contents = fun p => (t.contents p).filter (· != s) := by
  funext p
  cases p with
  | free =>
      refine (List.filter_eq_self.mpr ?_).symm
      intro s' hs'
      refine bne_iff_ne.mpr ?_
      rintro rfl
      exact hs hs'
  | bucket i => rfl

/-- Fewer entries in the lists keep the rest of the books. -/
theorem Books.of_unlink {hand' : List StaSlot} (h : Books hand t)
    (hp : Placed (List.finRange numSta) hand' (t.unlink s).contents) :
    Books hand' (t.unlink s) := by
  refine ⟨hp, ?_, h.count, ?_, ?_⟩
  · intro i s' hs'
    exact h.homed i s' (List.mem_filter.mp hs').1
  · intro s₁ s₂ h₁ h₂
    exact h.unique s₁ s₂ ((allocated_unlink t s s₁).mp h₁).1 ((allocated_unlink t s s₂).mp h₂).1
  · intro s' hs'
    exact h.group s' ((allocated_unlink t s s').mp hs').1

/-- **Unlinking an entry puts it in hand.** -/
theorem Books.unlink (h : Books hand t) (hs : t.Allocated s) : Books (s :: hand) (t.unlink s) := by
  obtain ⟨i, hi⟩ := hs
  have hbucket : s ∈ t.contents (.bucket i) := hi
  have hfree : s ∉ t.freeStaQueue := by
    intro hf
    have hsame := h.placed.unique hbucket (show s ∈ t.contents .free from hf)
    cases hsame
  refine h.of_unlink ?_
  rw [contents_unlink_of_notMem hfree]
  exact h.placed.unlink_place hbucket

/-- **Freeing an entry that is in hand**: it is unlinked once more, to no effect. -/
theorem Books.free (h : Books (s :: hand) t) : Books hand (t.freeStainfo s) := by
  have hnot : ∀ p, s ∉ t.contents p := h.placed.notMem (List.mem_cons_self ..)
  have hsame : (t.unlink s).contents = t.contents := by
    rw [contents_unlink_of_notMem (hnot .free)]
    exact h.placed.unlink_hand (List.mem_cons_self ..)
  have hu : Books (s :: hand) (t.unlink s) := by
    refine h.of_unlink ?_
    rw [hsame]
    exact h.placed
  refine ⟨?_, hu.homed, ?_, hu.unique, hu.group⟩
  · have hcontents : (t.freeStainfo s).contents
        = Function.update (t.unlink s).contents .free (t.freeStaQueue ++ [s]) := by
      funext p
      cases p with
      | free => rw [Function.update_self]; rfl
      | bucket i => rw [Function.update_of_ne (by simp)]; rfl
    rw [hcontents]
    refine hu.placed.exchange ?_
    rw [List.cons_append, ← List.append_assoc]
    exact (List.perm_append_singleton _ _).symm
  · show t.asocStaCount - 1 + ((t.freeStaQueue ++ [s]).length : Int) = numSta
    have hcount := h.count
    rw [List.length_append, List.length_singleton]
    omega

theorem Books.perm {hand' : List StaSlot} (h : Books hand t) (hp : hand.Perm hand') :
    Books hand' t :=
  ⟨h.placed.perm hp, h.homed, h.count, h.unique, h.group⟩

theorem freeStainfo_unlink (t : StaTable) (s : StaSlot) :
    (t.unlink s).freeStainfo s = t.freeStainfo s := by
  have hidem : (t.unlink s).unlink s = t.unlink s := by
    unfold StaTable.unlink
    simp only [List.filter_filter, Bool.and_self]
  unfold freeStainfo
  rw [hidem]

theorem Books.freeAllocated (h : Books [] t) (hs : t.Allocated s) : Books [] (t.freeStainfo s) := by
  rw [← freeStainfo_unlink]
  exact (h.unlink hs).free

/-! ## A new entry -/

theorem Books.alloc {a : MacAddr} (h : Books [] t) (hnew : ∀ s, t.Allocated s → t.hwaddr s ≠ a)
    (hgroup : a.isMcast = true → a = .bcast) : Books [] (t.allocStainfo a).1 := by
  unfold allocStainfo
  cases hq : t.freeStaQueue with
  | nil => exact h
  | cons psta queue =>
      dsimp only
      have hfree : psta ∈ t.contents .free := by
        show psta ∈ t.freeStaQueue
        rw [hq]
        exact List.mem_cons_self ..
      have hout : ∀ i, psta ∉ t.staHash i := by
        intro i hi
        have hsame := h.placed.unique hfree (show psta ∈ t.contents (.bucket i) from hi)
        cases hsame
      -- what is in a list now: an old entry, or the new one in its own list
      have hin : ∀ i s, s ∈ (if i = wifiMacHash a then t.staHash i ++ [psta] else t.staHash i) →
          (s ≠ psta ∧ s ∈ t.staHash i) ∨ (s = psta ∧ i = wifiMacHash a) := by
        intro i s hs
        have hold : s ∈ t.staHash i → s ≠ psta := by
          rintro hm rfl
          exact hout i hm
        split at hs
        · rename_i hi
          rcases List.mem_append.mp hs with hm | hm
          · exact Or.inl ⟨hold hm, hm⟩
          · exact Or.inr ⟨List.mem_singleton.mp hm, hi⟩
        · exact Or.inl ⟨hold hs, hs⟩
      refine ⟨?_, ?_, ?_, ?_, ?_⟩
      · have h1 : Placed (List.finRange numSta) [psta] (Function.update t.contents .free queue) := by
          refine h.placed.exchange ?_
          show ([] ++ t.freeStaQueue).Perm _
          rw [hq]
          exact List.Perm.refl _
        have h2 : Placed (List.finRange numSta) [] (Function.update
            (Function.update t.contents .free queue) (.bucket (wifiMacHash a))
            (t.staHash (wifiMacHash a) ++ [psta])) := by
          refine h1.exchange ?_
          rw [Function.update_of_ne (by simp)]
          exact (List.perm_append_singleton _ _).symm
        refine (congrArg (Placed _ _) ?_).mp h2
        funext p
        cases p with
        | free => rw [Function.update_of_ne (by simp), Function.update_self]; rfl
        | bucket i =>
            by_cases hi : i = wifiMacHash a
            · rw [hi, Function.update_self]
              exact (if_pos rfl).symm
            · rw [Function.update_of_ne (by simpa using hi), Function.update_of_ne (by simp)]
              exact (if_neg hi).symm
      · intro i s hs
        show wifiMacHash (if s = psta then a else t.hwaddr s) = i
        rcases hin i s hs with ⟨hne, hm⟩ | ⟨rfl, hi⟩
        · rw [if_neg hne]
          exact h.homed i s hm
        · rw [if_pos rfl]
          exact hi.symm
      · have hcount := h.count
        rw [hq, List.length_cons] at hcount
        show t.asocStaCount + 1 + (queue.length : Int) = numSta
        omega
      · rintro s s' ⟨i, hi⟩ ⟨i', hi'⟩ heq
        have heq : (if s = psta then a else t.hwaddr s) = if s' = psta then a else t.hwaddr s' := heq
        rcases hin i s hi with ⟨hne, hm⟩ | ⟨rfl, -⟩
        · rcases hin i' s' hi' with ⟨hne', hm'⟩ | ⟨rfl, -⟩
          · rw [if_neg hne, if_neg hne'] at heq
            exact h.unique s s' ⟨i, hm⟩ ⟨i', hm'⟩ heq
          · rw [if_neg hne, if_pos rfl] at heq
            exact absurd heq (hnew s ⟨i, hm⟩)
        · rcases hin i' s' hi' with ⟨hne', hm'⟩ | ⟨rfl, -⟩
          · rw [if_pos rfl, if_neg hne'] at heq
            exact absurd heq.symm (hnew s' ⟨i', hm'⟩)
          · rfl
      · rintro s ⟨i, hi⟩ hmc
        have hmc : (if s = psta then a else t.hwaddr s).isMcast = true := hmc
        show (if s = psta then a else t.hwaddr s) = .bcast
        rcases hin i s hi with ⟨hne, hm⟩ | ⟨rfl, -⟩
        · rw [if_neg hne] at hmc ⊢
          exact h.group s ⟨i, hm⟩ hmc
        · rw [if_pos rfl] at hmc ⊢
          exact hgroup hmc

/-! ## All entries but one -/

@[simp] theorem hwaddr_foldl_unlink : ∀ (l : List StaSlot) (t : StaTable),
    (l.foldl StaTable.unlink t).hwaddr = t.hwaddr := by
  intro l
  induction l with
  | nil => intro t; rfl
  | cons x l ih => intro t; exact ih _

@[simp] theorem hwaddr_foldl_freeStainfo : ∀ (l : List StaSlot) (t : StaTable),
    (l.foldl freeStainfo t).hwaddr = t.hwaddr := by
  intro l
  induction l with
  | nil => intro t; rfl
  | cons x l ih => intro t; exact ih _

theorem allocated_foldl {f : StaTable → StaSlot → StaTable}
    (hf : ∀ t s s', (f t s).Allocated s' ↔ t.Allocated s' ∧ s' ≠ s) :
    ∀ (l : List StaSlot) (t : StaTable) (s : StaSlot),
      (l.foldl f t).Allocated s ↔ t.Allocated s ∧ s ∉ l := by
  intro l
  induction l with
  | nil => intro t s; simp
  | cons x l ih =>
      intro t s
      rw [List.foldl_cons, ih, hf, List.mem_cons, not_or, and_assoc]

/-- **The first loop** takes its entries in hand. -/
theorem Books.foldl_unlink : ∀ {l hand : List StaSlot} {t : StaTable}, Books hand t → l.Nodup →
    (∀ s ∈ l, t.Allocated s) → Books (l ++ hand) (l.foldl StaTable.unlink t) := by
  intro l
  induction l with
  | nil => intro hand t h _ _; exact h
  | cons x l ih =>
      intro hand t h hnd hall
      obtain ⟨hx, hnd⟩ := List.nodup_cons.mp hnd
      have hrest : ∀ s ∈ l, (t.unlink x).Allocated s := by
        intro s hs
        refine (allocated_unlink t x s).mpr ⟨hall s (List.mem_cons_of_mem _ hs), ?_⟩
        rintro rfl
        exact hx hs
      have h1 := ih (h.unlink (hall x (List.mem_cons_self ..))) hnd hrest
      exact h1.perm List.perm_middle

/-- **The second loop** frees what is in hand. -/
theorem Books.foldl_free : ∀ {l hand : List StaSlot} {t : StaTable}, Books (l ++ hand) t →
    Books hand (l.foldl freeStainfo t) := by
  intro l
  induction l with
  | nil => intro hand t h; exact h
  | cons x l ih => intro hand t h; exact ih h.free

theorem mem_freeStaList {pbcmc : Option StaSlot} :
    s ∈ t.freeStaList pbcmc ↔ t.Allocated s ∧ some s ≠ pbcmc := by
  unfold freeStaList Allocated
  rw [List.mem_flatMap]
  constructor
  · rintro ⟨i, -, hi⟩
    obtain ⟨hm, hne⟩ := List.mem_filter.mp hi
    exact ⟨⟨i, hm⟩, bne_iff_ne.mp hne⟩
  · rintro ⟨⟨i, hi⟩, hne⟩
    exact ⟨i, List.mem_finRange i, List.mem_filter.mpr ⟨hi, bne_iff_ne.mpr hne⟩⟩

theorem Books.nodup_freeStaList (h : Books hand t) (pbcmc : Option StaSlot) :
    (t.freeStaList pbcmc).Nodup := by
  unfold freeStaList
  refine List.nodup_flatMap.mpr ⟨?_, ?_⟩
  · intro i _
    exact (h.placed.place_nodup (.bucket i)).filter _
  · refine (List.nodup_finRange numSta).imp ?_
    intro i j hij s hi hj
    have hsame := h.placed.unique (p := .bucket i) (q := .bucket j)
      (List.mem_filter.mp hi).1 (List.mem_filter.mp hj).1
    exact hij (StaPlace.bucket.inj hsame).symm

/-- Both loops together. -/
theorem Books.freeAllLoops (h : Books [] t) (pbcmc : Option StaSlot) :
    Books [] ((t.freeStaList pbcmc).foldl freeStainfo
      ((t.freeStaList pbcmc).foldl StaTable.unlink t)) := by
  have hall : ∀ s ∈ t.freeStaList pbcmc, t.Allocated s := by
    intro s hs
    exact (mem_freeStaList.mp hs).1
  exact (h.foldl_unlink (h.nodup_freeStaList pbcmc) hall).foldl_free

/-- The counter is the number of entries in the lists. -/
theorem Books.count_eq (h : Books [] t) : t.asocStaCount = ∑ i, (t.staHash i).length := by
  have hlen := h.placed.length_eq
  have hsplit : ∑ p, (t.contents p).length
      = t.freeStaQueue.length + ∑ i, (t.staHash i).length := by
    have huniv : (Finset.univ : Finset StaPlace)
        = insert .free (Finset.univ.image StaPlace.bucket) := by
      refine (Finset.eq_univ_of_forall ?_).symm
      intro p
      cases p with
      | free => exact Finset.mem_insert_self ..
      | bucket i =>
          exact Finset.mem_insert_of_mem (Finset.mem_image_of_mem _ (Finset.mem_univ i))
    have hinj : Set.InjOn StaPlace.bucket (Finset.univ : Finset (Fin numSta)) := by
      intro i _ j _ hij
      exact StaPlace.bucket.inj hij
    rw [huniv, Finset.sum_insert (by simp), Finset.sum_image hinj]
    rfl
  rw [hsplit, List.length_nil, List.length_finRange] at hlen
  have hcount := h.count
  omega

/-- A counter of one leaves room for one entry. -/
theorem Books.eq_of_count_one (h : Books [] t) (h1 : t.asocStaCount = 1) {s' : StaSlot}
    (hs : t.Allocated s) (hs' : t.Allocated s') : s = s' := by
  obtain ⟨i, hi⟩ := hs
  obtain ⟨j, hj⟩ := hs'
  have hsum : ∑ i, (t.staHash i).length = 1 := by
    have hcount := h.count_eq
    omega
  have hpos : 0 < (t.staHash i).length := List.length_pos_of_mem hi
  have hpos' : 0 < (t.staHash j).length := List.length_pos_of_mem hj
  have hsplit := Finset.add_sum_erase Finset.univ (fun i => (t.staHash i).length)
    (Finset.mem_univ i)
  have hsame : j = i := by
    by_contra hne
    have hle := Finset.single_le_sum (f := fun i => (t.staHash i).length)
      (fun _ _ => Nat.zero_le _) (Finset.mem_erase.mpr ⟨hne, Finset.mem_univ j⟩)
    omega
  subst hsame
  have hone : (t.staHash j).length = 1 := by
    omega
  obtain ⟨x, hx⟩ := List.length_eq_one_iff.mp hone
  rw [hx, List.mem_singleton] at hi hj
  rw [hi, hj]

end

/-! ## Every run -/

/-- The books, and the broadcast entry is there. -/
structure TableInv (t : StaTable) : Prop where
  books : Books [] t
  bcmc : ∃ s, t.Allocated s ∧ t.hwaddr s = .bcast

section

variable {t t' : StaTable} {s : StaSlot}

theorem isMcast_bcast : MacAddr.bcast.isMcast = true := by decide

theorem getStainfo_bcast (h : TableInv t) :
    t.getStainfo .bcast = some s ↔ t.Allocated s ∧ t.hwaddr s = .bcast := by
  rw [getStainfo_eq_some h.books, if_pos isMcast_bcast]

/-- **What `rtw_free_all_stainfo` leaves.** -/
theorem allocated_freeAllStainfo (h : TableInv t) :
    t.freeAllStainfo.Allocated s ↔ t.getStainfo .bcast = some s := by
  obtain ⟨b, hb, hbaddr⟩ := h.bcmc
  have hget : t.getStainfo .bcast = some b := (getStainfo_bcast h).mpr ⟨hb, hbaddr⟩
  unfold freeAllStainfo
  dsimp only
  rw [hget]
  split
  · -- the short cut: the broadcast entry is the only one
    rename_i h1
    constructor
    · intro hs
      rw [h.books.eq_of_count_one h1 hb hs]
    · intro hs
      rw [← Option.some.inj hs]
      exact hb
  · rw [allocated_foldl allocated_freeStainfo, allocated_foldl allocated_unlink, mem_freeStaList]
    constructor
    · rintro ⟨⟨hs, hnot⟩, -⟩
      by_contra hne
      exact hnot ⟨hs, fun heq => hne heq.symm⟩
    · intro hs
      cases hs
      exact ⟨⟨hb, fun hm => hm.2 rfl⟩, fun hm => hm.2 rfl⟩

theorem TableInv.freeAll (h : TableInv t) : TableInv t.freeAllStainfo := by
  obtain ⟨b, hb, hbaddr⟩ := h.bcmc
  have hget : t.getStainfo .bcast = some b := (getStainfo_bcast h).mpr ⟨hb, hbaddr⟩
  refine ⟨?_, b, (allocated_freeAllStainfo h).mpr hget, ?_⟩
  · unfold freeAllStainfo
    dsimp only
    split
    · exact h.books
    · exact h.books.freeAllLoops _
  · unfold freeAllStainfo
    dsimp only
    split
    · exact hbaddr
    · rw [hwaddr_foldl_freeStainfo, hwaddr_foldl_unlink]
      exact hbaddr

theorem allocated_alloc (h : Books [] t) {a : MacAddr} (hs : t.Allocated s) :
    (t.allocStainfo a).1.Allocated s ∧ (t.allocStainfo a).1.hwaddr s = t.hwaddr s := by
  obtain ⟨i, hi⟩ := hs
  unfold allocStainfo
  cases hq : t.freeStaQueue with
  | nil => exact ⟨⟨i, hi⟩, rfl⟩
  | cons psta queue =>
      refine ⟨⟨i, ?_⟩, if_neg ?_⟩
      · show s ∈ if i = wifiMacHash a then t.staHash i ++ [psta] else t.staHash i
        split
        · exact List.mem_append_left _ hi
        · exact hi
      · rintro rfl
        have hfree : s ∈ t.contents .free := by
          show s ∈ t.freeStaQueue
          rw [hq]
          exact List.mem_cons_self ..
        have hsame := h.placed.unique hfree (show s ∈ t.contents (.bucket i) from hi)
        cases hsame

/-- An address that is not found is of no entry, and is no group address. -/
theorem TableInv.alloc (h : TableInv t) {a : MacAddr} (hnone : t.getStainfo a = none) :
    TableInv (t.allocStainfo a).1 := by
  obtain ⟨b, hb, hbaddr⟩ := h.bcmc
  have hno : ∀ s, t.Allocated s → t.hwaddr s ≠ if a.isMcast then .bcast else a := by
    intro s hs haddr
    have hsome := (getStainfo_eq_some h.books).mpr ⟨hs, haddr⟩
    rw [hnone] at hsome
    cases hsome
  have hmc : ¬ a.isMcast = true := by
    intro hmc
    refine hno b hb ?_
    rw [if_pos hmc]
    exact hbaddr
  rw [if_neg hmc] at hno
  obtain ⟨hb', hsame⟩ := allocated_alloc h.books (a := a) hb
  exact ⟨h.books.alloc hno fun hm => absurd hm hmc, b, hb', hsame.trans hbaddr⟩

theorem TableInv.free (h : TableInv t) (hs : t.Allocated s) (hne : t.hwaddr s ≠ .bcast) :
    TableInv (t.freeStainfo s) := by
  obtain ⟨b, hb, hbaddr⟩ := h.bcmc
  refine ⟨h.books.freeAllocated hs, b, (allocated_freeStainfo t s b).mpr ⟨hb, ?_⟩, hbaddr⟩
  rintro rfl
  exact hne hbaddr

/-- **Every event keeps the invariant.** -/
theorem TableInv.step {e : TableEvent} (h : TableInv t) (hstep : tableStep t e = .done t') :
    TableInv t' := by
  cases e with
  | alloc a =>
      cases hstep
      split
      · rename_i hnone
        exact h.alloc (Option.isNone_iff_eq_none.mp hnone)
      · exact h
  | free s =>
      cases hstep
      split
      · rename_i hs
        exact h.free hs.1 hs.2
      · exact h
  | freeAll =>
      cases hstep
      exact h.freeAll

theorem books_initStaPriv : Books [] initStaPriv := by
  have hempty : ∀ s, ¬ initStaPriv.Allocated s := by
    rintro s ⟨i, hi⟩
    cases hi
  refine ⟨⟨List.nodup_finRange numSta, ?_⟩, ?_, ?_, ?_, ?_⟩
  · intro s
    rw [List.count_nil, Nat.zero_add,
      Finset.sum_eq_single_of_mem StaPlace.free (Finset.mem_univ _)]
    · rfl
    · intro p _ hp
      cases p with
      | free => exact absurd rfl hp
      | bucket i => rfl
  · intro i s hs
    cases hs
  · rfl
  · intro s _ hs
    exact absurd hs (hempty s)
  · intro s hs
    exact absurd hs (hempty s)

theorem tableInv_start : TableInv initStaPriv.initBcmcStainfo := by
  refine ⟨books_initStaPriv.alloc ?_ fun _ => rfl, ⟨0, by decide⟩, ?_, ?_⟩
  · rintro s ⟨i, hi⟩
    cases hi
  · exact ⟨wifiMacHash .bcast, by decide⟩
  · decide

/-- What the invariant says of each entry. -/
theorem TableInv.isMap (h : TableInv t) : t.IsMap := by
  refine ⟨?_, ⟨h.books.placed.place_nodup .free, fun i => h.books.placed.place_nodup (.bucket i)⟩,
    h.books.count_eq, fun a s => getStainfo_eq_some h.books, ?_,
    fun s => allocated_freeAllStainfo h⟩
  · intro s
    obtain ⟨p, hp, huniq⟩ := h.books.placed.existsUnique (List.mem_finRange s)
    cases p with
    | free =>
        refine Or.inl ⟨hp, ?_⟩
        intro i hi
        have hsame := huniq (.bucket i) hi
        cases hsame
    | bucket j =>
        have hhome := h.books.homed j s hp
        refine Or.inr ⟨?_, ?_⟩
        · intro hf
          have hsame := huniq .free hf
          cases hsame
        · intro i
          constructor
          · intro hi
            exact (h.books.homed i s hi).symm
          · rintro rfl
            rw [hhome]
            exact hp
  · obtain ⟨b, hb, hbaddr⟩ := h.bcmc
    exact ⟨b, (getStainfo_bcast h).mpr ⟨hb, hbaddr⟩⟩

end

/-- **In every run the station table is a finite map.** -/
theorem station_table_is_map {t : StaTable}
    (h : Reach tableStep (fun _ _ => True) initStaPriv.initBcmcStainfo t) : t.IsMap := by
  have hinv : TableInv t :=
    h.invariant TableInv tableInv_start fun hinv _ hstep => hinv.step hstep
  exact hinv.isMap

/-- Two stations whose addresses have one hash; the first goes, all go, and both come back. -/
def sampleTableRun : List TableEvent :=
  [.alloc ⟨2, 0, 0, 0, 0, 1⟩, .alloc ⟨2, 0, 0, 0, 4, 17⟩, .alloc ⟨2, 0, 0, 0, 0, 1⟩, .free 1,
    .freeAll, .alloc ⟨2, 0, 0, 0, 4, 17⟩, .alloc ⟨2, 0, 0, 0, 0, 1⟩]

theorem station_table_is_map_sample :
    ∃ t, runActions tableStep initStaPriv.initBcmcStainfo sampleTableRun = .done t
      ∧ t.freeStaQueue.length = 29
      ∧ t.getStainfo ⟨2, 0, 0, 0, 0, 1⟩ ≠ t.getStainfo ⟨2, 0, 0, 0, 4, 17⟩ ∧ t.IsMap := by
  have hview : (runActions tableStep initStaPriv.initBcmcStainfo sampleTableRun).view
      (fun t => (t.freeStaQueue.length,
        decide (t.getStainfo ⟨2, 0, 0, 0, 0, 1⟩ ≠ t.getStainfo ⟨2, 0, 0, 0, 4, 17⟩))) = some (29, true) := by
    decide +kernel
  obtain ⟨t, hrun, hview⟩ := Outcome.of_view hview
  obtain ⟨hlen, hapart⟩ := Prod.mk.inj hview
  exact ⟨t, hrun, hlen, of_decide_eq_true hapart, station_table_is_map
    (reach_runActions .start (RunOk.of_all fun _ _ _ => trivial) hrun)⟩

end StaTable

end Rtl8812au
