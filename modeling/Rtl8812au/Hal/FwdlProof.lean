import Rtl8812au.Hal.Fwdl

/-!
# The firmware gets to its place

Pages, blocks of three sizes and attempts that fail on the way come to this: what a download that succeeds wrote
last is the image, each byte once, in the page and at the address of its index.
-/

namespace Rtl8812au

variable {δ : Type} {chip : FwChip δ}

/-- A cell of the memory behind the pages. -/
abbrev FwCell := UInt8 × Nat

/-- The cell of a byte of the image. -/
def fwCell (j : Nat) : FwCell :=
  (UInt8.ofNat (j / maxDlfwPageSize) &&& 0x07, fwStartAddress + j % maxDlfwPageSize)

/-- The page that is set after some writes. A write of the page that failed leaves the old one. -/
def pageAfter (p : UInt8) : List FwOp → UInt8
  | [] => p
  | .page value took :: ops => pageAfter (if took then value &&& 0x07 else p) ops
  | .writeN .. :: ops => pageAfter p ops
  | .write8 .. :: ops => pageAfter p ops

/-- The cells some writes go to, with what is written. A block whose write failed may have got there in part, and
counts. -/
def written (p : UInt8) : List FwOp → List (FwCell × UInt8)
  | [] => []
  | .page value took :: ops => written (if took then value &&& 0x07 else p) ops
  | .writeN addr data :: ops => spread (fun i => (p, addr + i)) 0 data ++ written p ops
  | .write8 addr data :: ops => ((p, addr), data) :: written p ops

/-- Whether the page is set that this sets, if it sets one. -/
def FwOp.sets : FwOp → Bool
  | .page _ took => took
  | _ => true

/-- No write of the page failed. -/
def PagesSet (ops : List FwOp) : Prop := ∀ op ∈ ops, op.sets = true

instance (ops : List FwOp) : Decidable (PagesSet ops) := inferInstanceAs (Decidable (∀ op ∈ ops, op.sets = true))

theorem pagesSet_append {ops ops' : List FwOp} : PagesSet (ops ++ ops') ↔ PagesSet ops ∧ PagesSet ops' :=
  List.forall_mem_append

theorem written_append (ops ops' : List FwOp) (p : UInt8) :
    written p (ops ++ ops') = written p ops ++ written (pageAfter p ops) ops' := by
  induction ops generalizing p with
  | nil => rfl
  | cons op ops ih =>
      cases op with
      | page value took => exact ih _
      | writeN addr data =>
          show spread _ 0 data ++ written p (ops ++ ops') = (spread _ 0 data ++ written p ops) ++ _
          rw [ih, List.append_assoc]
          rfl
      | write8 addr data => exact congrArg (((p, addr), data) :: ·) (ih p)

/-- What a part of the writes goes to is a part. -/
theorem written_monotone {ops ops' : List FwOp} (h : ops <+: ops') (p : UInt8) : written p ops <+: written p ops' := by
  obtain ⟨rest, rfl⟩ := h
  rw [written_append]
  exact List.prefix_append _ _

/-! ## One page -/

/-- What `_BlockWrite_8812` writes when nothing fails. -/
def blockOps (buffer : List UInt8) : List FwOp :=
  let blockCountP1 := buffer.length / maxRegBolckSize
  let remainSizeP1 := buffer.length % maxRegBolckSize
  let offsetP2 := blockCountP1 * maxRegBolckSize
  let blockCountP2 := if remainSizeP1 ≠ 0 then remainSizeP1 / 8 else 0
  let remainSizeP2 := if remainSizeP1 ≠ 0 then remainSizeP1 % 8 else 0
  let offsetP3 := offsetP2 + blockCountP2 * 8
  (List.range' 0 blockCountP1).map (fun i => FwOp.writeN (fwStartAddress + i * maxRegBolckSize)
      ((buffer.drop (i * maxRegBolckSize)).take maxRegBolckSize))
    ++ ((List.range' 0 blockCountP2).map (fun i => FwOp.writeN (fwStartAddress + offsetP2 + i * 8)
        ((buffer.drop (offsetP2 + i * 8)).take 8))
      ++ (List.range' 0 remainSizeP2).map
        (fun i => FwOp.write8 (fwStartAddress + offsetP3 + i) (buffer.getD (offsetP3 + i) 0)))

theorem blockWrite_tried (buffer : List UInt8) (d : δ) :
    Tried (blockOps buffer) (blockWrite chip buffer d) :=
  (writeLoop_tried _ 0 d).andThen ((writeLoop_tried _ 0 _).andThen (writeLoop_tried _ 0 _))

/-- A run of block writes. -/
theorem written_blocks (p : UInt8) (a n k : Nat) (l : List UInt8) (h : k * n ≤ l.length) :
    written p ((List.range' 0 k).map fun i => FwOp.writeN (a + i * n) ((l.drop (i * n)).take n))
      = spread (fun i => (p, a + i)) 0 (l.take (k * n)) := by
  rw [← List.range_eq_range', ← flatMap_blocks 0 n k l h]
  generalize List.range k = is
  induction is with
  | nil => rfl
  | cons i is ih =>
      rw [List.map_cons, List.flatMap_cons, written, ih]
      congr 1
      exact spread_congr fun j _ => by rw [Nat.zero_add, Nat.zero_add, Nat.add_assoc]

/-- A run of byte writes. -/
theorem written_bytes (p : UInt8) (a o : Nat) (l : List UInt8) : ∀ {n i : Nat}, o + i + n ≤ l.length →
    written p ((List.range' i n).map fun i => FwOp.write8 (a + i) (l.getD (o + i) 0))
      = spread (fun i => (p, a + i)) i ((l.drop (o + i)).take n) := by
  intro n
  induction n with
  | zero => intro i _; rfl
  | succ n ih =>
      intro i h
      have hlt : o + i < l.length := by omega
      rw [List.range'_succ, List.map_cons, written, ih (by omega), List.drop_eq_getElem_cons hlt,
        List.take_succ_cons, spread, List.getD_eq_getElem?_getD, List.getElem?_eq_getElem hlt, Option.getD_some,
        Nat.add_assoc o i 1]

theorem pageAfter_writeN (p : UInt8) (is : List Nat) (f : Nat → Nat) (g : Nat → List UInt8) :
    pageAfter p (is.map fun i => FwOp.writeN (f i) (g i)) = p := by
  induction is with
  | nil => rfl
  | cons i is ih => exact ih

/-- **The three phases write the buffer.** -/
theorem written_blockOps (p : UInt8) (buffer : List UInt8) :
    written p (blockOps buffer) = spread (fun i => (p, fwStartAddress + i)) 0 buffer := by
  unfold blockOps
  simp only
  generalize hc1 : buffer.length / maxRegBolckSize = c1
  generalize hr1 : buffer.length % maxRegBolckSize = r1
  generalize hc2 : (if r1 ≠ 0 then r1 / 8 else 0) = c2
  generalize hr2 : (if r1 ≠ 0 then r1 % 8 else 0) = r2
  have hlen : buffer.length = c1 * maxRegBolckSize + r1 := by
    rw [← hc1, ← hr1, Nat.mul_comm]
    exact (Nat.div_add_mod _ _).symm
  have hrem : r1 = c2 * 8 + r2 := by
    rw [← hc2, ← hr2]
    split <;> omega
  have hsplit : buffer = buffer.take (c1 * maxRegBolckSize)
      ++ ((buffer.drop (c1 * maxRegBolckSize)).take (c2 * 8)
        ++ (buffer.drop (c1 * maxRegBolckSize + c2 * 8)).take r2) := by
    have hlast : (buffer.drop (c1 * maxRegBolckSize + c2 * 8)).take r2
        = buffer.drop (c1 * maxRegBolckSize + c2 * 8) := by
      refine List.take_of_length_le ?_
      rw [List.length_drop]
      omega
    rw [hlast, ← List.drop_drop, List.take_append_drop, List.take_append_drop]
  have h2 : (fun i => FwOp.writeN (fwStartAddress + c1 * maxRegBolckSize + i * 8)
        ((buffer.drop (c1 * maxRegBolckSize + i * 8)).take 8))
      = fun i => FwOp.writeN (fwStartAddress + c1 * maxRegBolckSize + i * 8)
        (((buffer.drop (c1 * maxRegBolckSize)).drop (i * 8)).take 8) := by
    funext i
    rw [List.drop_drop]
  rw [written_append, pageAfter_writeN, written_append, pageAfter_writeN, h2,
    written_blocks p _ _ _ _ (by omega), written_blocks p _ _ _ _ (by rw [List.length_drop]; omega),
    written_bytes p _ _ _ (by omega)]
  conv_rhs => rw [hsplit, spread_append, spread_append]
  have ht1 : (buffer.take (c1 * maxRegBolckSize)).length = c1 * maxRegBolckSize := by
    rw [List.length_take]
    omega
  have ht2 : ((buffer.drop (c1 * maxRegBolckSize)).take (c2 * 8)).length = c2 * 8 := by
    rw [List.length_take, List.length_drop]
    omega
  rw [ht1, ht2, Nat.add_zero]
  congr 2
  · exact spread_congr fun j _ => by rw [Nat.zero_add, Nat.zero_add, Nat.add_assoc]
  · exact spread_congr fun j _ => by rw [Nat.zero_add, Nat.zero_add, Nat.add_assoc]

/-! ## The image -/

/-- If every page was set, the writes were the first part of the image from `i` on, and all of it if they
succeeded. -/
def WritesImage (i : Nat) (bs : List UInt8) (r : Bool × List FwOp × δ) : Prop :=
  PagesSet r.2.1 → ∀ p, written p r.2.1 <+: spread fwCell i bs ∧
    (r.1 = true → written p r.2.1 = spread fwCell i bs)

theorem WritesImage.andThen {i : Nat} {bs bs' : List UInt8} {r r' : Bool × List FwOp × δ}
    (h : WritesImage i bs r) (h' : WritesImage (i + bs.length) bs' r') :
    WritesImage i (bs ++ bs') (if r.1 then (r'.1, r.2.1 ++ r'.2.1, r'.2.2) else r) := by
  rw [WritesImage, spread_append]
  cases hr : r.1 with
  | true =>
      rw [if_pos rfl]
      intro hset p
      obtain ⟨hset, hset'⟩ := pagesSet_append.mp hset
      -- the second part starts from the page that the first one left
      obtain ⟨hpart, hwhole⟩ := h' hset' (pageAfter p r.2.1)
      rw [written_append, (h hset p).2 hr]
      exact ⟨(List.prefix_append_right_inj _).mpr hpart, fun hok => congrArg (_ ++ ·) (hwhole hok)⟩
  | false =>
      rw [if_neg Bool.false_ne_true]
      intro hset p
      exact ⟨(h hset p).1.trans (List.prefix_append _ _), fun hok => absurd (hr.symm.trans hok) Bool.false_ne_true⟩

/-- The page that is set, whatever else is in the register. -/
theorem page_value (v q : UInt8) : ((v &&& 0xF8) ||| (q &&& 0x07)) &&& 0x07 = q &&& 0x07 := by
  have hdist : ((v &&& 0xF8) ||| (q &&& 0x07)) &&& 0x07 = (v &&& 0xF8 &&& 0x07) ||| (q &&& 0x07 &&& 0x07) :=
    UInt8.toBitVec_inj.mp BitVec.and_or_distrib_right
  have hhigh : (0xF8 : UInt8) &&& 0x07 = 0 := rfl
  have hlow : (0x07 : UInt8) &&& 0x07 = 0x07 := rfl
  rw [hdist, UInt8.and_assoc, UInt8.and_assoc, hhigh, hlow, UInt8.and_zero, UInt8.zero_or]

/-- **One page.** -/
theorem pageWrite_writes (page : Nat) {buffer : List UInt8} (h : buffer.length ≤ maxDlfwPageSize) (d : δ) :
    WritesImage (page * maxDlfwPageSize) buffer (pageWrite chip page buffer d) := by
  intro hset p
  have hcells : ∀ q, written (UInt8.ofNat page &&& 0x07) (blockOps buffer)
      = spread fwCell (page * maxDlfwPageSize) buffer → written q (pageWrite chip page buffer d).2.1
        <+: spread fwCell (page * maxDlfwPageSize) buffer ∧ ((pageWrite chip page buffer d).1 = true →
          written q (pageWrite chip page buffer d).2.1 = spread fwCell (page * maxDlfwPageSize) buffer) := by
    intro q hall
    unfold pageWrite at hset ⊢
    simp only at hset ⊢
    generalize chip.writePage _ _ = w at hset ⊢
    have htook : w.1 = true := hset _ List.mem_cons_self
    have htried : Tried (blockOps buffer) (blockWrite chip buffer w.2) := blockWrite_tried buffer w.2
    rw [htook, written, if_pos rfl, page_value, ← hall]
    exact ⟨written_monotone htried.part _, fun hok => congrArg (written _) (htried.whole hok)⟩
  refine hcells p ?_
  rw [written_blockOps]
  refine spread_congr fun j hj => ?_
  have hpage : (page * maxDlfwPageSize + j) / maxDlfwPageSize = page := by
    rw [Nat.add_comm, Nat.add_mul_div_right _ _ (by decide), Nat.div_eq_of_lt (Nat.lt_of_lt_of_le hj h),
      Nat.zero_add]
  have hoff : (page * maxDlfwPageSize + j) % maxDlfwPageSize = j := by
    rw [Nat.add_comm, Nat.add_mul_mod_self_right]
    exact Nat.mod_eq_of_lt (Nat.lt_of_lt_of_le hj h)
  unfold fwCell
  rw [hpage, hoff, Nat.zero_add]

theorem writePages_writes (buffer : List UInt8) : ∀ {n page : Nat} (d : δ),
    (page + n) * maxDlfwPageSize ≤ buffer.length →
      WritesImage (page * maxDlfwPageSize) ((buffer.drop (page * maxDlfwPageSize)).take (n * maxDlfwPageSize))
        (writePages chip buffer n page d) := by
  intro n
  induction n with
  | zero =>
      intro page d _
      rw [Nat.zero_mul, List.take_zero]
      exact fun _ p => ⟨List.prefix_refl _, fun _ => rfl⟩
  | succ n ih =>
      intro page d h
      have hnext : page * maxDlfwPageSize + maxDlfwPageSize ≤ buffer.length := by
        rw [← Nat.succ_mul]
        exact Nat.le_trans (Nat.mul_le_mul_right _ (by omega)) h
      have hone : ((buffer.drop (page * maxDlfwPageSize)).take maxDlfwPageSize).length = maxDlfwPageSize := by
        rw [List.length_take, List.length_drop]
        omega
      have hsplit : (buffer.drop (page * maxDlfwPageSize)).take ((n + 1) * maxDlfwPageSize)
          = (buffer.drop (page * maxDlfwPageSize)).take maxDlfwPageSize
            ++ (buffer.drop ((page + 1) * maxDlfwPageSize)).take (n * maxDlfwPageSize) := by
        rw [Nat.succ_mul, Nat.add_comm, List.take_add, List.drop_drop, Nat.succ_mul page]
      rw [hsplit]
      refine (pageWrite_writes page (Nat.le_of_eq hone) d).andThen ?_
      rw [hone, ← Nat.succ_mul]
      have hcount : page.succ + n = page + (n + 1) := by omega
      exact ih _ (hcount ▸ h)

/-- **The whole image.** -/
theorem writeFw_writes (buffer : List UInt8) (d : δ) : WritesImage 0 buffer (writeFw chip buffer d) := by
  have hpages : buffer.length / maxDlfwPageSize * maxDlfwPageSize ≤ buffer.length := Nat.div_mul_le_self _ _
  have hdiv : buffer.length / maxDlfwPageSize * maxDlfwPageSize + buffer.length % maxDlfwPageSize = buffer.length := by
    rw [Nat.mul_comm]
    exact Nat.div_add_mod _ _
  have hfirst := @writePages_writes δ chip buffer (buffer.length / maxDlfwPageSize) 0 d
    (by rw [Nat.zero_add]; exact hpages)
  rw [Nat.zero_mul, List.drop_zero] at hfirst
  unfold writeFw
  simp only
  by_cases hrem : buffer.length % maxDlfwPageSize = 0
  · have hall : buffer.take (buffer.length / maxDlfwPageSize * maxDlfwPageSize) = buffer :=
      List.take_of_length_le (by omega)
    rw [hall] at hfirst
    rw [if_neg (not_not_intro hrem), ite_self]
    exact hfirst
  · have htaken : (buffer.take (buffer.length / maxDlfwPageSize * maxDlfwPageSize)).length
        = buffer.length / maxDlfwPageSize * maxDlfwPageSize := by
      rw [List.length_take, Nat.min_eq_left hpages]
    have hlast : (buffer.drop (buffer.length / maxDlfwPageSize * maxDlfwPageSize)).length ≤ maxDlfwPageSize := by
      rw [List.length_drop]
      have hlt : buffer.length % maxDlfwPageSize < maxDlfwPageSize := Nat.mod_lt _ (by decide)
      omega
    have hrest := @pageWrite_writes δ chip (buffer.length / maxDlfwPageSize) _ hlast
      (writePages chip buffer (buffer.length / maxDlfwPageSize) 0 d).2.2
    rw [← htaken, ← Nat.zero_add (buffer.take _).length] at hrest
    have hboth := hfirst.andThen hrest
    rw [htaken, Nat.zero_add, List.take_append_drop] at hboth
    rw [if_pos hrem]
    exact hboth

/-! ## Attempts -/

/-- Two bytes of an image have different cells. -/
theorem fwCell_inj {j k : Nat} (hj : j < fwSize8812) (hk : k < fwSize8812) (h : fwCell j = fwCell k) : j = k := by
  have hmask : ∀ n < 8, (UInt8.ofNat n &&& 0x07).toNat = n := by decide
  obtain ⟨hpage, hoff⟩ := Prod.mk.inj h
  have hpages := congrArg UInt8.toNat hpage
  rw [hmask _ (Nat.div_lt_of_lt_mul hj), hmask _ (Nat.div_lt_of_lt_mul hk)] at hpages
  rw [← Nat.div_add_mod j maxDlfwPageSize, ← Nat.div_add_mod k maxDlfwPageSize, hpages, Nat.add_left_cancel hoff]

/-- **A report was read.** A poll that succeeds ends with a read of `REG_MCUFWDL` that has `FWDL_ChkSum_rpt`. -/
theorem pollingFwdlChksum_reported {d d' : δ} (h : pollingFwdlChksum chip d = (true, d')) :
    ∃ d₁ v d₂, chip.readFwdl d₁ = (v, d₂) ∧ v &&& fwdlChkSumRpt ≠ 0 ∧ chip.testChksumFail d₂ = (false, d') := by
  have hread : ∀ n d, ∃ d₁, pollFwdl chip n d = chip.readFwdl d₁ := by
    intro n
    induction n with
    | zero => exact fun d => ⟨d, rfl⟩
    | succ n ih =>
        intro d
        unfold pollFwdl
        simp only
        split
        · exact ⟨d, rfl⟩
        · exact ih _
  unfold pollingFwdlChksum at h
  obtain ⟨d₁, hd₁⟩ := hread (4 + chip.morePolls d) d
  rw [hd₁] at h
  simp only at h
  split at h
  · cases h
  · rename_i hrpt
    obtain ⟨hfail, hd'⟩ := Prod.mk.inj h
    refine ⟨d₁, _, _, rfl, hrpt, Prod.ext ?_ hd'⟩
    rwa [Bool.not_eq_true'] at hfail

/-- What a loop of attempts has written where every page was set: in the cells of the image only, and if it
succeeded the whole image last. -/
structure Downloaded (chip : FwChip δ) (image : List UInt8) (r : Bool × List FwOp × δ) : Prop where
  inside : PagesSet r.2.1 → ∀ p, ∀ w ∈ written p r.2.1, ∃ j < image.length, w.1 = fwCell j
  whole : PagesSet r.2.1 → r.1 = true → ∃ pre last, r.2.1 = pre ++ last ∧
    ∀ p, written p last = spread fwCell 0 image
  reported : r.1 = true → ∃ d, pollingFwdlChksum chip d = (true, r.2.2)

theorem fwdlLoop_downloaded (image : List UInt8) : ∀ {attempts : Nat} (d : δ),
    Downloaded chip image (fwdlLoop chip image attempts false d) := by
  intro attempts
  induction attempts with
  | zero => exact fun d => ⟨fun _ p w hw => absurd hw List.not_mem_nil, nofun, nofun⟩
  | succ n ih =>
      intro d
      have hone := @writeFw_writes δ chip image (chip.resetChksum d)
      have hinside : PagesSet (writeFw chip image (chip.resetChksum d)).2.1 → ∀ p,
          ∀ w ∈ written p (writeFw chip image (chip.resetChksum d)).2.1, ∃ j < image.length, w.1 = fwCell j := by
        intro hset p w hmem
        obtain ⟨j, -, hlt, hj⟩ := mem_spread ((hone hset p).1.subset hmem)
        exact ⟨j, by omega, hj⟩
      -- an attempt that failed, and the rest
      have hmore : ∀ d', Downloaded chip image ((fwdlLoop chip image n false d').1,
          (writeFw chip image (chip.resetChksum d)).2.1 ++ (fwdlLoop chip image n false d').2.1,
          (fwdlLoop chip image n false d').2.2) := by
        intro d'
        obtain ⟨hrest, hwhole, hrep⟩ := ih d'
        refine ⟨fun hset p w hmem => ?_, fun hset hok => ?_, hrep⟩
        · obtain ⟨hfirst, hset⟩ := pagesSet_append.mp hset
          rw [written_append] at hmem
          rcases List.mem_append.mp hmem with hmem | hmem
          · exact hinside hfirst p w hmem
          · exact hrest hset _ w hmem
        · obtain ⟨pre, last, heq, hlast⟩ := hwhole (pagesSet_append.mp hset).2 hok
          exact ⟨_ ++ pre, last, by rw [heq, List.append_assoc], hlast⟩
      unfold fwdlLoop
      split
      · exact ⟨fun _ p w hmem => absurd hmem List.not_mem_nil, nofun, nofun⟩
      · simp only
        cases hok : (writeFw chip image (chip.resetChksum d)).1 with
        | true =>
            rw [if_pos rfl]
            split
            · rename_i hpoll
              exact ⟨hinside, fun hset _ => ⟨[], _, (List.nil_append _).symm, fun p => (hone hset p).2 hok⟩,
                fun _ => ⟨_, Prod.ext hpoll rfl⟩⟩
            · exact hmore _
        | false =>
            rw [if_neg Bool.false_ne_true]
            exact hmore _

/-- The status before the loop does not matter once an attempt is made. -/
theorem fwdlLoop_status {image : List UInt8} {attempts : Nat} {d : δ} (h : chip.stopped d = false) (st : Bool) :
    fwdlLoop chip image (attempts + 1) st d = fwdlLoop chip image (attempts + 1) false d := by
  unfold fwdlLoop
  rw [h]
  rfl

/-- A chip whose third write fails, so that the first attempt does, and whose checksum is there at the second
read. -/
def sampleFwChip : FwChip Nat where
  exec d _ := (d != 2, d + 1)
  readPage d := (0xe3, d)
  writePage d _ := (true, d + 1)
  resetChksum d := d
  readFwdl d := (if d = 54 then 0x07 else 0x03, d + 1)
  morePolls _ := 2
  testChksumFail d := (false, d)
  stopped _ := false

/-- A header, a whole page, and 13 bytes of another. -/
def sampleFw : List UInt8 :=
  [0x00, 0x95] ++ List.replicate 30 0 ++ (List.range (maxDlfwPageSize + 13)).map UInt8.ofNat

/-- The first attempt ends with its second block. The second one has two pages, of 42 writes and of 6. -/
def sampleFwRun : Bool × List FwOp × Nat := (firmwareDownload sampleFwChip sampleFw 0 0).getD (false, [], 0)

end Rtl8812au
