import Rtl8812au.Efuse.WriteLog
import Rtl8812au.Lib.Reach

/-!
# Does the efuse hold what was written?

`rtw_efuse_map_write` compares the data with the map and writes the words that differ, section by
section. Two things go wrong in `hal_EfusePgPacketWrite_8812A`. Where a blank packet has only some of
the words of a section, the others go to the address that `hal_EfuseGetCurrentSize_8812A` finds; it
starts from where the map was read to, behind the byte that ends the log, and the new packet stands
where no reader gets to. And in the sections behind the first one the size is looked for from the
middle of what was written before, so that the loop may find no room and still return `_TRUE`.

A call for which neither of these comes up is read back as it was written.
-/

namespace Rtl8812au.Efuse

/-! ## The words of a section -/

theorem clearBit_bits : ∀ (w : Fin 16) (i j : Fin 4), clearBit w.val i.val < 16
    ∧ ((clearBit w.val i.val).testBit j.val = true → w.val.testBit j.val = true ∧ j ≠ i) := by
  decide

/-- One byte of the data more. -/
theorem overlay_succ {data newdata newdata' : Mem} {i idx : Nat} (n k : Nat)
    (hi : newdata' i = data idx) (hne : ∀ k, k ≠ i → newdata' k = newdata k) :
    (if i + 1 ≤ k ∧ k < i + 1 + n then data (idx + 1 + (k - (i + 1))) else newdata' k)
      = if i ≤ k ∧ k < i + (n + 1) then data (idx + (k - i)) else newdata k := by
  by_cases hk : k = i
  · have hidx : idx + (k - i) = idx := by omega
    rw [if_neg (by omega), if_pos (by omega), hidx, hk, hi]
  · by_cases hin : i + 1 ≤ k ∧ k < i + 1 + n
    · have hidx : idx + 1 + (k - (i + 1)) = idx + (k - i) := by omega
      rw [if_pos hin, if_pos (by omega), hidx]
    · rw [if_neg hin, if_neg (by omega), hne k hk]

/-- `newdata` is the section with the data over it, and differs from the map in enabled words
only. -/
theorem sectionBytes_spec {map : Mem} {addr base : Nat} {data : Mem} :
    ∀ (n i idx wordEn : Nat) (newdata : Mem), addr + idx = base + i → i + n ≤ 8 → wordEn < 16 →
      (∀ k < 8, wordEn.testBit (k / 2) = true → newdata k = map (base + k)) →
      (∀ k, i ≤ k → newdata k = map (base + k)) →
      (sectionBytes map addr data n i idx wordEn newdata).1 < 16
        ∧ (∀ k < 8, (sectionBytes map addr data n i idx wordEn newdata).1.testBit (k / 2) = true →
            (sectionBytes map addr data n i idx wordEn newdata).2 k = map (base + k))
        ∧ ∀ k, (sectionBytes map addr data n i idx wordEn newdata).2 k
          = if i ≤ k ∧ k < i + n then data (idx + (k - i)) else newdata k := by
  intro n
  induction n with
  | zero =>
      intro i idx wordEn newdata _ _ hw hsame _
      refine ⟨hw, hsame, fun k => ?_⟩
      rw [if_neg (by omega)]
      rfl
  | succ n ih =>
      intro i idx wordEn newdata hbase hn hw hsame hrest
      rw [sectionBytes]
      by_cases hne : data idx ≠ map (addr + idx)
      · rw [if_pos hne]
        have hbits := clearBit_bits ⟨wordEn, hw⟩ ⟨i / 2, by omega⟩
        obtain ⟨h1, h2, h3⟩ := ih (i + 1) (idx + 1) (clearBit wordEn (i / 2))
          (fun k => if k = i then data idx else newdata k) (by omega) (by omega)
          (hbits ⟨0, by decide⟩).1
          (by
            intro k hk hbit
            -- a word that is still disabled is not the one of byte `i`
            obtain ⟨hold, hword⟩ := (hbits ⟨k / 2, by omega⟩).2 hbit
            have hki : k ≠ i := by
              intro hki
              subst hki
              exact hword rfl
            rw [if_neg hki]
            exact hsame k hk hold)
          (by
            intro k hk
            rw [if_neg (by omega)]
            exact hrest k (by omega))
        refine ⟨h1, h2, fun k => ?_⟩
        rw [h3 k]
        exact overlay_succ n k (if_pos rfl) fun k hk => if_neg hk
      · rw [if_neg hne]
        obtain ⟨h1, h2, h3⟩ := ih (i + 1) (idx + 1) wordEn newdata (by omega) (by omega) hw hsame
          fun k hk => hrest k (by omega)
        refine ⟨h1, h2, fun k => ?_⟩
        rw [h3 k]
        refine overlay_succ n k ?_ fun k _ => rfl
        rw [not_not.mp hne, hrest i (Nat.le_refl _), hbase]

/-! ## The sections of a call -/

/-- `word_en` and `newdata` of a section as a change, if they are one. -/
def changeOf (offset : Nat) (r : Nat × Mem) : Option Change :=
  if h : offset < 64 ∧ r.1 < 15 then some ⟨offset, r.1, r.2, h.1, h.2⟩ else none

/-- The sections that a call changes, in the order of its loop. -/
def changesFrom (map : Mem) (addr cnts : Nat) (data : Mem) : Nat → Nat → Nat → List Change
  | 0, _, _ => []
  | fuel + 1, idx, offset =>
    if idx < cnts then
      let j := (addr + idx) &&& 0x7
      let n := min (8 - j) (cnts - idx)
      let r := sectionBytes map addr data n j idx 0x0f (fun k => map (8 * offset + k))
      (changeOf offset r).toList ++ changesFrom map addr cnts data fuel (idx + n) (offset + 1)
    else []

def changes (map : Mem) (w : Write) : List Change :=
  changesFrom map w.addr w.cnts w.data (w.cnts + 1) 0 (w.addr / 8)

/-- Each change has its place in the log as those before it leave it. -/
def AllFit : List Packet → List Change → Prop
  | _, [] => True
  | ps, d :: ds => Fits d 0 ps ∧ AllFit (logWrite d ps) ds

instance decidableAllFit : ∀ (ps : List Packet) (ds : List Change), Decidable (AllFit ps ds)
  | _, [] => inferInstanceAs (Decidable True)
  | ps, d :: ds =>
    have := decidableAllFit (logWrite d ps) ds
    inferInstanceAs (Decidable (Fits d 0 ps ∧ AllFit (logWrite d ps) ds))

/-- The map depends on the cells alone. -/
theorem efuseMap_congr {e e' : EfuseState} (h : e'.cells = e.cells) : efuseMap e' = efuseMap e := by
  obtain ⟨c, used, rep⟩ := e
  obtain ⟨c', used', rep'⟩ := e'
  cases h
  unfold efuseMap halEfuseReadEFuse
  split
  · rfl
  · split
    · rfl
    · rfl

/-- What one turn does to the map: the data are over it as far as the turn got. -/
theorem turn_map {map data newdata : Mem} {addr idx offset j n wordEn k : Nat}
    (hbase : addr + idx = 8 * offset + j) (hn : j + n ≤ 8) (hstart : idx = 0 ∨ j = 0)
    (hsame : ∀ k < 8, wordEn.testBit (k / 2) = true → newdata k = map (8 * offset + k))
    (hnew : ∀ k, newdata k = if j ≤ k ∧ k < j + n then data (idx + (k - j)) else map (8 * offset + k)) :
    (if k / 8 = offset ∧ wordEn.testBit (k % 8 / 2) = false then newdata (k % 8)
      else map.copy addr data 0 idx k) = map.copy addr data 0 (idx + n) k := by
  rw [Mem.copy_apply, Mem.copy_apply]
  by_cases hsec : k / 8 = offset
  · have hk : 8 * offset + k % 8 = k := by omega
    -- what `newdata` has for the byte is what the map is to have
    have hnewk : newdata (k % 8)
        = if addr ≤ k ∧ k < addr + (idx + n) then data (0 + (k - addr)) else map k := by
      rw [hnew, hk]
      by_cases hin : j ≤ k % 8 ∧ k % 8 < j + n
      · have hpos : idx + (k % 8 - j) = 0 + (k - addr) := by omega
        rw [if_pos hin, if_pos (by omega), hpos]
      · rw [if_neg hin, if_neg (by omega)]
    cases hbit : wordEn.testBit (k % 8 / 2) with
    | false =>
        rw [if_pos ⟨hsec, rfl⟩]
        exact hnewk
    | true =>
        have hold := hsame (k % 8) (Nat.mod_lt _ (by decide)) hbit
        rw [hk] at hold
        rw [if_neg fun h => Bool.false_ne_true h.2.symm, if_neg (by omega), ← hnewk, hold]
  · rw [if_neg fun h => hsec h.1]
    by_cases hin : addr ≤ k ∧ k < addr + idx
    · rw [if_pos hin, if_pos (by omega)]
    · rw [if_neg hin, if_neg (by omega)]

/-- **The loop over the sections.** If each change has its place, or there is no room for any, the
cells hold a log again, and its map is the one before with the data over it: all of them if the loop
succeeds, else those before the section that failed. -/
theorem mapWriteLoop_log {map : Mem} {addr cnts : Nat} {data : Mem} (hle : addr + cnts ≤ mapLen) :
    ∀ (fuel idx offset : Nat) (e : EfuseState) (ps : List Packet), LogInv e.cells ps →
      (∀ k < mapLen, efuseMap e k = map.copy addr data 0 idx k) → idx ≤ cnts →
      (idx < cnts → offset = (addr + idx) / 8 ∧ (idx = 0 ∨ (addr + idx) % 8 = 0)) →
      cnts < idx + fuel →
      AllFit ps (changesFrom map addr cnts data fuel idx offset)
        ∨ packetLimit ≤ (halEfuseGetCurrentSize e).1 →
      (∃ qs, LogInv (mapWriteLoop map addr cnts data fuel idx offset e).2.cells qs)
        ∧ ∃ n ≤ cnts, ((mapWriteLoop map addr cnts data fuel idx offset e).1 = true → n = cnts)
          ∧ ∀ k < mapLen, efuseMap (mapWriteLoop map addr cnts data fuel idx offset e).2 k
            = map.copy addr data 0 n k := by
  intro fuel
  induction fuel with
  | zero =>
      intro idx offset e ps _ _ hidx _ hfuel _
      omega
  | succ fuel ih =>
      intro idx offset e ps hinv hmap hidx hpos hfuel hfit
      rw [mapWriteLoop]
      rw [changesFrom] at hfit
      by_cases hlt : idx < cnts
      · obtain ⟨hoff, hstart⟩ := hpos hlt
        have hand : (addr + idx) &&& 0x7 = (addr + idx) % 8 := Nat.and_two_pow_sub_one_eq_mod _ 3
        have hmapLen : mapLen = 512 := rfl
        rw [if_pos hlt, hand] at hfit
        rw [if_pos hlt, hand]
        dsimp only at hfit ⊢
        generalize hj : (addr + idx) % 8 = j at hfit hstart ⊢
        generalize hn : min (8 - j) (cnts - idx) = n at hfit ⊢
        have hbase : addr + idx = 8 * offset + j := by omega
        obtain ⟨hw, hsame, hnew⟩ := @sectionBytes_spec map addr (8 * offset) data n j idx 0x0f
          (fun k => map (8 * offset + k)) hbase (by omega) (by decide) (fun _ _ _ => rfl)
          (fun _ _ => rfl)
        generalize sectionBytes map addr data n j idx 0x0f (fun k => map (8 * offset + k)) = r
          at hw hsame hnew hfit ⊢
        have hnext : idx + n < cnts →
            offset + 1 = (addr + (idx + n)) / 8 ∧ (idx + n = 0 ∨ (addr + (idx + n)) % 8 = 0) := by
          intro hmore
          exact ⟨by omega, Or.inr (by omega)⟩
        by_cases hall : r.1 = 0x0f
        · -- the section is as it is to be
          rw [if_neg (not_not.mpr hall)]
          have hnone : changeOf offset r = none := dif_neg (by omega)
          rw [hnone, Option.toList_none, List.nil_append] at hfit
          refine ih (idx + n) (offset + 1) e ps hinv ?_ (by omega) hnext (by omega) hfit
          intro k hk
          have hturn := @turn_map map data r.2 addr idx offset j n r.1 k hbase (by omega) hstart hsame
            hnew
          have hset : ∀ i : Fin 4, Nat.testBit 0x0f i.val = true := by decide
          rw [if_neg] at hturn
          · rw [hmap k hk, hturn]
          · intro h
            rw [hall, hset ⟨k % 8 / 2, by omega⟩] at h
            exact Bool.false_ne_true h.2.symm
        · rw [if_pos hall]
          have hsome : changeOf offset r = some ⟨offset, r.1, r.2, by omega, by omega⟩ :=
            dif_pos ⟨by omega, by omega⟩
          rw [hsome, Option.toList_some, List.singleton_append] at hfit
          -- the write fails and programs nothing, or the log is written on
          have hwrite : (halEfusePgPacketWrite rewriteDepth offset r.1 r.2 e).1 = false
                ∧ (halEfusePgPacketWrite rewriteDepth offset r.1 r.2 e).2.cells = e.cells
              ∨ ∃ d : Change, d.offset = offset ∧ d.wordEn = r.1 ∧ d.data = r.2 ∧ Fits d 0 ps
                ∧ AllFit (logWrite d ps) (changesFrom map addr cnts data fuel (idx + n) (offset + 1))
                ∧ (halEfusePgPacketWrite rewriteDepth offset r.1 r.2 e).1 = true
                ∧ LogInv (halEfusePgPacketWrite rewriteDepth offset r.1 r.2 e).2.cells
                  (logWrite d ps) := by
            rcases hfit with hfit | hsize
            · rcases pgPacketWrite_log hinv hfit.1 rfl with hfail | hdone
              · exact Or.inl hfail
              · exact Or.inr ⟨_, rfl, rfl, rfl, hfit.1, hfit.2, hdone.1, hdone.2⟩
            · exact Or.inl (@pgPacketWrite_full ⟨offset, r.1, r.2, by omega, by omega⟩ e hsize _)
          generalize halEfusePgPacketWrite rewriteDepth offset r.1 r.2 e = pw at hwrite ⊢
          rcases hwrite with ⟨hfail, hcells⟩ | ⟨d, hdo, hdw, hdd, hd, hrest, htrue, hinv'⟩
          · rw [hfail, if_neg Bool.false_ne_true]
            refine ⟨⟨ps, by rw [hcells]; exact hinv⟩, idx, hidx,
              fun h => absurd h Bool.false_ne_true, ?_⟩
            intro k hk
            rw [efuseMap_congr hcells]
            exact hmap k hk
          · rw [htrue, if_pos rfl]
            refine ih (idx + n) (offset + 1) pw.2 _ hinv' ?_ (by omega) hnext (by omega)
              (Or.inl hrest)
            intro k hk
            rw [hinv.efuseMap_write hd rfl hinv' hk, hdo, hdw, hdd, hmap k hk]
            exact turn_map hbase (by omega) hstart hsame hnew
      · rw [if_neg hlt]
        have hdone : idx = cnts := by omega
        exact ⟨⟨ps, hinv⟩, idx, hidx, fun _ => hdone, hmap⟩

/-! ## Runs -/

/-- An efuse as it comes. -/
def blankEfuse : EfuseState := { cells := fun _ => 0xff }

/-- A run is a series of calls. -/
def mapWriteStep (e : EfuseState) (w : Write) : Outcome EfuseState := .done (rtwEfuseMapWrite w e).2

/-- A call that succeeds leaves the map with its data over it, and one that fails before it programs
anything leaves the map. -/
def ReadsBack (e : EfuseState) (w : Write) : Prop :=
  ((rtwEfuseMapWrite w e).1 = true →
      ∀ k < mapLen, efuseMap (rtwEfuseMapWrite w e).2 k = (efuseMap e).copy w.addr w.data 0 w.cnts k)
    ∧ ((rtwEfuseMapWrite w e).1 = false → (rtwEfuseMapWrite w e).2.cells = e.cells →
      ∀ k < mapLen, efuseMap (rtwEfuseMapWrite w e).2 k = efuseMap e k)

/-- Each section that the call changes has its place in the log, or the log has no room for any
packet. -/
def Placeable (e : EfuseState) (w : Write) : Prop :=
  ∃ ps, Log e.cells 0 ps ∧ (AllFit ps (changes (efuseMap e) w) ∨ packetLimit ≤ endOf 0 ps + 1)

theorem halEfuseReadEFuse_cells (offset sizeByte : Nat) (pbuf : Mem) (e : EfuseState) :
    (halEfuseReadEFuse offset sizeByte pbuf e).2.cells = e.cells := by
  unfold halEfuseReadEFuse
  split
  · rfl
  · split
    · rfl
    · rfl

/-- Behind a read of the map a log without room is found to have none. -/
theorem size_full {e : EfuseState} {ps : List Packet} (h : LogInv e.cells ps)
    (hfull : packetLimit ≤ endOf 0 ps + 1) :
    packetLimit ≤ (halEfuseGetCurrentSize (halEfuseReadEFuse 0 mapLen (fun _ => 0xff) e).2).1 := by
  have hroom := h.room_lt
  have hne : ps ≠ [] := by
    intro hnil
    rw [hnil, endOf_nil] at hfull
    exact absurd hfull (by decide)
  obtain ⟨c, used, rep⟩ := e
  rw [readEFuse_log h.log hroom hne (Nat.le_of_eq (Nat.zero_add mapLen))]
  unfold halEfuseGetCurrentSize
  dsimp only
  rw [h.log.size_behind (Nat.le_succ _) (by omega)]
  exact hfull

/-- **A call**: the cells hold a log again, and it reads back. -/
theorem rtwEfuseMapWrite_log {e : EfuseState} {w : Write} {ps : List Packet}
    (h : LogInv e.cells ps) (hw : Placeable e w) :
    (∃ qs, LogInv (rtwEfuseMapWrite w e).2.cells qs) ∧ ReadsBack e w := by
  have hroom := h.room_lt
  obtain ⟨qs, hlog, hplace⟩ := hw
  obtain rfl := h.log.unique hlog (by omega)
  have hsame : (rtwEfuseMapWrite w e).1 = false → (rtwEfuseMapWrite w e).2.cells = e.cells →
      ∀ k < mapLen, efuseMap (rtwEfuseMapWrite w e).2 k = efuseMap e k :=
    fun _ hcells k _ => congrFun (efuseMap_congr hcells) k
  by_cases hle : w.addr + w.cnts ≤ mapLen
  · have hrun : rtwEfuseMapWrite w e
        = mapWriteLoop (efuseMap e) w.addr w.cnts w.data (w.cnts + 1) 0 (w.addr / 8)
            (halEfuseReadEFuse 0 mapLen (fun _ => 0xff) e).2 := if_neg (by omega)
    have hcells := halEfuseReadEFuse_cells 0 mapLen (fun _ => 0xff) e
    have hinv : LogInv (halEfuseReadEFuse 0 mapLen (fun _ => 0xff) e).2.cells ps := by
      rw [hcells]
      exact h
    have hstart : ∀ k < mapLen, efuseMap (halEfuseReadEFuse 0 mapLen (fun _ => 0xff) e).2 k
        = (efuseMap e).copy w.addr w.data 0 0 k := by
      intro k _
      rw [efuseMap_congr hcells, Mem.copy_apply, if_neg (by omega)]
    obtain ⟨hlog', n, -, htrue, hmap⟩ := mapWriteLoop_log hle (w.cnts + 1) 0 (w.addr / 8) _ ps hinv
      hstart (Nat.zero_le _) (fun _ => ⟨rfl, Or.inl rfl⟩) (by omega)
      (hplace.imp_right (size_full h))
    rw [← hrun] at hlog' htrue hmap
    refine ⟨hlog', ?_, hsame⟩
    intro hr k hk
    rw [hmap k hk, htrue hr]
  · have hfail : rtwEfuseMapWrite w e = (false, e) := if_pos (by omega)
    refine ⟨⟨ps, by rw [hfail]; exact h⟩, ?_, hsame⟩
    intro hr
    rw [hfail] at hr
    exact absurd hr Bool.false_ne_true

theorem blankEfuse_log : LogInv blankEfuse.cells [] :=
  ⟨fun _ _ _ => rfl, trivial, List.Pairwise.nil⟩

/-- **The efuse holds what was written.** In every run of calls that find a place for each section
they change, from an efuse that holds nothing, a call that finds one reads back. -/
theorem mapWrite_reads_back {e : EfuseState} {w : Write}
    (h : Reach mapWriteStep Placeable blankEfuse e) (hw : Placeable e w) : ReadsBack e w := by
  have hinv : ∃ ps, LogInv e.cells ps := by
    refine Reach.invariant (fun e => ∃ ps, LogInv e.cells ps) ⟨[], blankEfuse_log⟩ ?_ h
    intro e e' w hlog hok hstep
    obtain ⟨ps, hps⟩ := hlog
    cases hstep
    exact (rtwEfuseMapWrite_log hps hok).1
  obtain ⟨ps, hps⟩ := hinv
  exact (rtwEfuseMapWrite_log hps hw).2

/-! ## Two runs -/

/-- A word, and then two sections from inside that word on. -/
def wordWrite : Write := ⟨0, 2, fun k => [0x34, 0x12].getD k 0⟩
def longWrite : Write := ⟨1, 10, fun k => [0x56, 0x78, 1, 2, 3, 4, 5, 6, 7, 8].getD k 0⟩

/-- An efuse with that word. -/
def wordEfuse : EfuseState := (rtwEfuseMapWrite wordWrite blankEfuse).2

theorem wordEfuse_log : Log wordEfuse.cells 0
    [⟨0, 0xe, false, [0x34, 0x12], by decide, by decide, by decide, rfl⟩] := by
  have htail : ∀ k < 512, 3 ≤ k → wordEfuse.cells k = 0xff := by decide +kernel
  exact ⟨by decide, fun k hk hlt => htail k hlt hk⟩

theorem mapWrite_reads_back_sample :
    Reach mapWriteStep Placeable blankEfuse wordEfuse ∧ Placeable wordEfuse longWrite
      ∧ (rtwEfuseMapWrite longWrite wordEfuse).1 = true ∧ ReadsBack wordEfuse longWrite := by
  have hfirst : Placeable blankEfuse wordWrite :=
    ⟨[], blankEfuse_log.log, Or.inl (by decide)⟩
  have hreach : Reach mapWriteStep Placeable blankEfuse wordEfuse := Reach.start.next hfirst rfl
  have hsecond : Placeable wordEfuse longWrite :=
    ⟨_, wordEfuse_log, Or.inl (by decide)⟩
  exact ⟨hreach, hsecond, by decide, mapWrite_reads_back hreach hsecond⟩

/-- A word that is made 0xFFFF again, which leaves a blank packet, and then this word and the next
one. -/
def eraseWrite : Write := ⟨0, 2, fun k => [0xff, 0xff].getD k 0⟩
def splitWrite : Write := ⟨0, 4, fun k => [0x11, 0x11, 0x22, 0x22].getD k 0⟩

def erasedEfuse : EfuseState := (rtwEfuseMapWrite eraseWrite wordEfuse).2

/-- The second word is lost: its packet stands behind a byte that ends the log. -/
theorem mapWrite_loses_word :
    Reach mapWriteStep (fun _ _ => True) blankEfuse erasedEfuse
      ∧ splitWrite.addr + splitWrite.cnts ≤ mapLen
      ∧ (rtwEfuseMapWrite splitWrite erasedEfuse).1 = true
      ∧ (rtwEfuseMapWrite splitWrite erasedEfuse).2.cells.read 0 11
        = [0x0e, 0x34, 0x12, 0x0e, 0x11, 0x11, 0xff, 0x0d, 0x22, 0x22, 0xff]
      ∧ (efuseMap (rtwEfuseMapWrite splitWrite erasedEfuse).2).read 0 4 = [0x11, 0x11, 0xff, 0xff]
      ∧ ¬ ReadsBack erasedEfuse splitWrite := by
  have hdone : (rtwEfuseMapWrite splitWrite erasedEfuse).1 = true := by decide
  have hlost : efuseMap (rtwEfuseMapWrite splitWrite erasedEfuse).2 2 = 0xff := by decide
  refine ⟨(Reach.start.next trivial rfl).next trivial rfl, by decide, hdone, by decide,
    by decide, ?_⟩
  intro h
  have hbyte := h.1 hdone 2 (by decide)
  rw [hlost, Mem.copy_apply] at hbyte
  exact absurd hbyte (by decide)

end Rtl8812au.Efuse
