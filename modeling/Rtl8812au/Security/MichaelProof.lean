import Rtl8812au.Lib.BigEndian
import Rtl8812au.Security.Michael

/-!
# The Michael MIC, byte by byte and word by word

`rtw_secmicappend` takes the message a byte at a time and `rtw_secgetmic` pads it on the way.
Against it stands Michael over whole words: the message, `0x5a` and four to seven zeros, cut
into little-endian words that go through the block function one after another.
-/

namespace Rtl8812au

namespace Michael

/-- A word rotated to the left. -/
def rotl (x : UInt32) (n : Nat) : UInt32 := ⟨x.toBitVec.rotateLeft n⟩

/-- A word rotated to the right. -/
def rotr (x : UInt32) (n : Nat) : UInt32 := ⟨x.toBitVec.rotateRight n⟩

/-- The bytes of each half of a word change places. -/
def xswap (x : UInt32) : UInt32 :=
  let b := Bytes4.ofWord x
  Bytes4.word ⟨b.b1, b.b0, b.b3, b.b2⟩

/-- The little-endian word of four bytes. -/
def leWord (a b c d : UInt8) : UInt32 := Bytes4.word ⟨d, c, b, a⟩

/-- The block function, over a word of the message. -/
def block (s : UInt32 × UInt32) (m : UInt32) : UInt32 × UInt32 :=
  let l := s.1 ^^^ m
  let r := s.2 ^^^ rotl l 17
  let l := l + r
  let r := r ^^^ xswap l
  let l := l + r
  let r := r ^^^ rotl l 3
  let l := l + r
  let r := r ^^^ rotr l 2
  (l + r, r)

/-- The words of a message. -/
def words : List UInt8 → List UInt32
  | a :: b :: c :: d :: bs => leWord a b c d :: words bs
  | _ => []

/-- What is put behind a message of `n` bytes. -/
def pad (n : Nat) : List UInt8 := 0x5a :: List.replicate (7 - n % 4) 0

/-- Michael under a key of eight bytes. -/
def michael (key : Nat → UInt8) (msg : List UInt8) : List UInt8 :=
  let s := (words (msg ++ pad msg.length)).foldl block
    (leWord (key 0) (key 1) (key 2) (key 3), leWord (key 4) (key 5) (key 6) (key 7))
  secmicputuint32 s.1 ++ secmicputuint32 s.2

example : michael (fun _ => 0) [] = [0x82, 0x92, 0x5c, 0x1c, 0xa1, 0xd1, 0x30, 0xb8] := by
  decide

/-! ## The block function -/

theorem rotate_masked (x : BitVec 32) (n : Nat) (hn : n < 32) :
    (x <<< n) ||| ((x >>> (32 - n)) &&& BitVec.ofNat 32 (2 ^ n - 1)) = x.rotateLeft n := by
  refine BitVec.eq_of_getLsbD_eq fun i hi => ?_
  rw [BitVec.getLsbD_rotateLeft, Nat.mod_eq_of_lt hn, BitVec.getLsbD_or, BitVec.getLsbD_and,
    BitVec.getLsbD_shiftLeft, BitVec.getLsbD_ushiftRight, BitVec.getLsbD_ofNat,
    Nat.testBit_two_pow_sub_one]
  by_cases h : i < n
  · simp [h, hi]
  · simp [h, hi]

theorem rotateLeft_rotateRight (x : BitVec 32) : x.rotateLeft 30 = x.rotateRight 2 := by
  refine BitVec.eq_of_getLsbD_eq fun i hi => ?_
  rw [BitVec.getLsbD_rotateLeft, BitVec.getLsbD_rotateRight]

theorem rol32_17 (x : UInt32) : rol32 x 17 = rotl x 17 :=
  UInt32.toBitVec_inj.mp (rotate_masked x.toBitVec 17 (by decide))

theorem rol32_3 (x : UInt32) : rol32 x 3 = rotl x 3 :=
  UInt32.toBitVec_inj.mp (rotate_masked x.toBitVec 3 (by decide))

theorem ror32_2 (x : UInt32) : ror32 x 2 = rotr x 2 :=
  UInt32.toBitVec_inj.mp
    ((rotate_masked x.toBitVec 30 (by decide)).trans (rotateLeft_rotateRight x.toBitVec))

/-- The bits of a byte of a word. -/
theorem getLsbD_byte (x : BitVec 32) (s : Nat) {i : Nat} (hi : i < 8) :
    ((x >>> s).setWidth 8).getLsbD i = x.getLsbD (s + i) := by
  rw [BitVec.getLsbD_setWidth, BitVec.getLsbD_ushiftRight, decide_eq_true hi, Bool.true_and]

theorem xswap_eq (x : UInt32) :
    ((x &&& 0xff00ff00) >>> 8) ||| ((x &&& 0x00ff00ff) <<< 8) = xswap x := by
  have hhigh : ∀ k < 32, (0xff00ff00#32).getLsbD k = decide (k / 8 % 2 = 1) := by decide
  have hlow : ∀ k < 32, (0x00ff00ff#32).getLsbD k = decide (k / 8 % 2 = 0) := by decide
  refine Bytes4.eq_word fun i hi => ?_
  show (((x.toBitVec &&& 0xff00ff00#32) >>> 8) ||| ((x.toBitVec &&& 0x00ff00ff#32) <<< 8)).getLsbD i
    = if i < 8 then ((x.toBitVec >>> 8).setWidth 8).getLsbD i
      else if i < 16 then ((x.toBitVec >>> 0).setWidth 8).getLsbD (i - 8)
      else if i < 24 then ((x.toBitVec >>> 24).setWidth 8).getLsbD (i - 16)
      else ((x.toBitVec >>> 16).setWidth 8).getLsbD (i - 24)
  rw [BitVec.getLsbD_or, BitVec.getLsbD_ushiftRight, BitVec.getLsbD_shiftLeft, BitVec.getLsbD_and,
    BitVec.getLsbD_and]
  -- the byte the bit lies in: one of the masks has it, and it comes from the other byte
  rcases (by omega : i < 8 ∨ (8 ≤ i ∧ i < 16) ∨ (16 ≤ i ∧ i < 24) ∨ 24 ≤ i) with h | h | h | h
  · have hodd : (8 + i) / 8 % 2 = 1 := by omega
    rw [if_pos h, getLsbD_byte _ _ h, hhigh (8 + i) (by omega), decide_eq_true hodd]
    simp [h]
  · have h8 : ¬ i < 8 := by omega
    have heven : ¬ (8 + i) / 8 % 2 = 1 := by omega
    have heven' : (i - 8) / 8 % 2 = 0 := by omega
    rw [if_neg h8, if_pos h.2, getLsbD_byte _ _ (by omega), hhigh (8 + i) (by omega),
      hlow (i - 8) (by omega), decide_eq_false heven, decide_eq_true heven']
    simp [h8, hi]
  · have h8 : ¬ i < 8 := by omega
    have h16 : ¬ i < 16 := by omega
    have hodd : (8 + i) / 8 % 2 = 1 := by omega
    have hodd' : ¬ (i - 8) / 8 % 2 = 0 := by omega
    have hat : 24 + (i - 16) = 8 + i := by omega
    rw [if_neg h8, if_neg h16, if_pos h.2, getLsbD_byte _ _ (by omega), hhigh (8 + i) (by omega),
      hlow (i - 8) (by omega), decide_eq_true hodd, decide_eq_false hodd', hat]
    simp [h8]
  · have h8 : ¬ i < 8 := by omega
    have h16 : ¬ i < 16 := by omega
    have h24 : ¬ i < 24 := by omega
    have heven : (i - 8) / 8 % 2 = 0 := by omega
    have hat : 16 + (i - 24) = i - 8 := by omega
    rw [if_neg h8, if_neg h16, if_neg h24, getLsbD_byte _ _ (by omega),
      BitVec.getLsbD_of_ge _ (8 + i) (by omega), hlow (i - 8) (by omega), decide_eq_true heven, hat]
    simp [h8, hi]

theorem micBlock_eq (l r m : UInt32) : micBlock l r m = block (l, r) m := by
  unfold micBlock block
  simp only [rol32_17, rol32_3, ror32_2, xswap_eq]

/-- The word that the loop of `secmicgetuint32` makes. -/
theorem leWord_eq (a b c d : UInt8) :
    leWord a b c d = a.toUInt32 ||| (b.toUInt32 <<< 8) ||| (c.toUInt32 <<< 16) ||| (d.toUInt32 <<< 24) := by
  have h0 : ∀ (x : UInt8) (k : Nat), 8 ≤ k → x.toBitVec.getLsbD k = false := fun x k hk =>
    BitVec.getLsbD_of_ge _ _ hk
  refine (Bytes4.eq_word fun i hi => ?_).symm
  show ((a.toBitVec.setWidth 32) ||| ((b.toBitVec.setWidth 32) <<< 8)
      ||| ((c.toBitVec.setWidth 32) <<< 16) ||| ((d.toBitVec.setWidth 32) <<< 24)).getLsbD i
    = if i < 8 then a.toBitVec.getLsbD i else if i < 16 then b.toBitVec.getLsbD (i - 8)
      else if i < 24 then c.toBitVec.getLsbD (i - 16) else d.toBitVec.getLsbD (i - 24)
  simp only [BitVec.getLsbD_or, BitVec.getLsbD_shiftLeft, BitVec.getLsbD_setWidth]
  rcases (by omega : i < 8 ∨ (8 ≤ i ∧ i < 16) ∨ (16 ≤ i ∧ i < 24) ∨ 24 ≤ i) with h | h | h | h
  · have h16 : i < 16 := by omega
    have h24 : i < 24 := by omega
    simp [hi, h, h16, h24]
  · have h8 : ¬ i < 8 := by omega
    have h24 : i < 24 := by omega
    have h32 : i - 8 < 32 := by omega
    simp [hi, h8, h.2, h24, h32, h0 _ i h.1]
  · have h8 : ¬ i < 8 := by omega
    have h16 : ¬ i < 16 := by omega
    have h32 : i - 16 < 32 := by omega
    simp [hi, h8, h16, h.2, h32, h0 _ i (by omega), h0 _ (i - 8) (by omega)]
  · have h8 : ¬ i < 8 := by omega
    have h16 : ¬ i < 16 := by omega
    have h24 : ¬ i < 24 := by omega
    have h32 : i - 24 < 32 := by omega
    simp [hi, h8, h16, h24, h32, h0 _ i (by omega), h0 _ (i - 8) (by omega),
      h0 _ (i - 16) (by omega)]

/-! ## The bytes of a message -/

variable {d : MicData}

theorem append_append (d : MicData) (p q : List UInt8) :
    rtwSecmicappend (rtwSecmicappend d p) q = rtwSecmicappend d (p ++ q) := List.foldl_append.symm

/-- However a message is divided, its bytes go in one after another. -/
theorem append_chunks (d : MicData) (chunks : List (List UInt8)) :
    chunks.foldl rtwSecmicappend d = rtwSecmicappend d chunks.flatten := by
  induction chunks generalizing d with
  | nil => rfl
  | cons c chunks ih => rw [List.foldl_cons, ih, append_append, List.flatten_cons]

/-- How many bytes wait for their word to be full. -/
theorem nBytesInM_append (bs : List UInt8) (h : d.nBytesInM < 4) :
    (rtwSecmicappend d bs).nBytesInM = (d.nBytesInM + bs.length) % 4 := by
  induction bs generalizing d with
  | nil => exact (Nat.mod_eq_of_lt h).symm
  | cons b bs ih =>
    show (rtwSecmicappend (rtwSecmicappendbyte d b) bs).nBytesInM = _
    by_cases hfull : 4 ≤ d.nBytesInM + 1
    · have hbyte : (rtwSecmicappendbyte d b).nBytesInM = 0 := by
        unfold rtwSecmicappendbyte
        rw [if_pos hfull]
      rw [ih (by omega), hbyte, List.length_cons]
      omega
    · have hbyte : (rtwSecmicappendbyte d b).nBytesInM = d.nBytesInM + 1 := by
        unfold rtwSecmicappendbyte
        rw [if_neg hfull]
      rw [ih (by omega), hbyte, List.length_cons]
      omega

/-- No byte waits. -/
def Empty (d : MicData) : Prop := d.m = 0 ∧ d.nBytesInM = 0

/-- Four bytes are a word. -/
theorem append_word (hd : Empty d) (a b c e : UInt8) :
    rtwSecmicappend d [a, b, c, e]
      = { d with l := (block (d.l, d.r) (leWord a b c e)).1
                 r := (block (d.l, d.r) (leWord a b c e)).2 } := by
  obtain ⟨hm, hn⟩ := hd
  have hstep : ∀ (m : UInt32) (n : Nat) (x : UInt8), ¬ 4 ≤ n + 1 →
      rtwSecmicappendbyte { d with m := m, nBytesInM := n } x
        = { d with m := m ||| (x.toUInt32 <<< UInt32.ofNat (8 * n)), nBytesInM := n + 1 } := by
    intro m n x hlt
    unfold rtwSecmicappendbyte
    rw [if_neg hlt]
  have hd : d = { d with m := 0, nBytesInM := 0 } := by rw [← hm, ← hn]
  have hfour : rtwSecmicappend d [a, b, c, e]
      = rtwSecmicappendbyte (rtwSecmicappendbyte (rtwSecmicappendbyte (rtwSecmicappendbyte d a) b)
          c) e := rfl
  have hword : (0 ||| (a.toUInt32 <<< UInt32.ofNat (8 * 0))) ||| (b.toUInt32 <<< UInt32.ofNat (8 * 1))
      ||| (c.toUInt32 <<< UInt32.ofNat (8 * 2)) ||| (e.toUInt32 <<< UInt32.ofNat (8 * 3))
        = leWord a b c e := by
    have hzero : UInt32.ofNat (8 * 0) = 0 := rfl
    rw [leWord_eq, UInt32.zero_or, hzero, UInt32.shiftLeft_zero]
    rfl
  rw [hfour, hd, hstep 0 0 a (by omega), hstep _ 1 b (by omega), hstep _ 2 c (by omega)]
  unfold rtwSecmicappendbyte
  dsimp only
  rw [if_pos (by omega), hword, micBlock_eq]

/-- Whole words go through the block function one after another. -/
theorem append_words (bs : List UInt8) (d : MicData) (hd : Empty d) (hlen : bs.length % 4 = 0) :
    rtwSecmicappend d bs
      = { d with l := ((words bs).foldl block (d.l, d.r)).1
                 r := ((words bs).foldl block (d.l, d.r)).2 } := by
  match bs with
  | [] => rfl
  | [_] => simp at hlen
  | [_, _] => simp at hlen
  | [_, _, _] => simp at hlen
  | a :: b :: c :: e :: bs =>
    have hrest : bs.length % 4 = 0 := by
      simp only [List.length_cons] at hlen
      omega
    have hcons : rtwSecmicappend d (a :: b :: c :: e :: bs)
        = rtwSecmicappend (rtwSecmicappend d [a, b, c, e]) bs := rfl
    have hnext := append_words bs
      { d with l := (block (d.l, d.r) (leWord a b c e)).1
               r := (block (d.l, d.r) (leWord a b c e)).2 } ⟨hd.1, hd.2⟩ hrest
    rw [hcons, append_word hd, hnext]
    rfl

/-! ## The value -/

/-- The state `rtw_secgetmic` leaves. -/
def getmicState (d : MicData) : MicData :=
  secmicclear (micPad (rtwSecmicappend d [0x5a, 0, 0, 0, 0]))

/-- The turns of the padding loop that do something fill the word. -/
theorem padTurns_eq (turns : List Nat) (d : MicData) (h : d.nBytesInM < 4)
    (hturns : (4 - d.nBytesInM) % 4 ≤ turns.length) :
    turns.foldl (fun d _ => if d.nBytesInM = 0 then d else rtwSecmicappendbyte d 0) d
      = rtwSecmicappend d (List.replicate ((4 - d.nBytesInM) % 4) 0) := by
  induction turns generalizing d with
  | nil =>
    have hzero : (4 - d.nBytesInM) % 4 = 0 := Nat.le_zero.mp hturns
    rw [hzero]
    rfl
  | cons t turns ih =>
    rw [List.length_cons] at hturns
    rw [List.foldl_cons]
    by_cases hn : d.nBytesInM = 0
    · rw [if_pos hn]
      exact ih d h (by omega)
    · have hnext : (rtwSecmicappendbyte d 0).nBytesInM = (d.nBytesInM + 1) % 4 :=
        nBytesInM_append [0] h
      have hless : (4 - d.nBytesInM) % 4
          = (4 - (rtwSecmicappendbyte d 0).nBytesInM) % 4 + 1 := by
        rw [hnext]
        omega
      rw [if_neg hn, ih _ (by rw [hnext]; omega) (by omega), hless]
      rfl

/-- The zeros that fill the last word. -/
theorem micPad_eq (h : d.nBytesInM < 4) :
    micPad d = rtwSecmicappend d (List.replicate ((4 - d.nBytesInM) % 4) 0) :=
  padTurns_eq (List.range 3) d h (by rw [List.length_range]; omega)

theorem setkey_empty (key : Nat → UInt8) : Empty (rtwSecmicsetkey key) := ⟨rfl, rfl⟩

theorem keys_append (d : MicData) (bs : List UInt8) :
    (rtwSecmicappend d bs).k0 = d.k0 ∧ (rtwSecmicappend d bs).k1 = d.k1 := by
  induction bs generalizing d with
  | nil => exact ⟨rfl, rfl⟩
  | cons b bs ih =>
    have hbyte : (rtwSecmicappendbyte d b).k0 = d.k0 ∧ (rtwSecmicappendbyte d b).k1 = d.k1 := by
      unfold rtwSecmicappendbyte
      dsimp only
      split
      · exact ⟨rfl, rfl⟩
      · exact ⟨rfl, rfl⟩
    obtain ⟨h0, h1⟩ := ih (rtwSecmicappendbyte d b)
    exact ⟨h0.trans hbyte.1, h1.trans hbyte.2⟩

/-- What is appended in all for a message. -/
theorem padded_eq (msg : List UInt8) (hd : Empty d) :
    micPad (rtwSecmicappend (rtwSecmicappend d msg) [0x5a, 0, 0, 0, 0])
      = rtwSecmicappend d (msg ++ pad msg.length) := by
  have hn : (rtwSecmicappend d (msg ++ [0x5a, 0, 0, 0, 0])).nBytesInM = (msg.length + 5) % 4 := by
    rw [nBytesInM_append _ (by rw [hd.2]; omega), hd.2, List.length_append, Nat.zero_add]
    rfl
  have hpad : ([0x5a, 0, 0, 0, 0] : List UInt8)
      ++ List.replicate ((4 - (msg.length + 5) % 4) % 4) 0 = pad msg.length := by
    have hlen : 7 - msg.length % 4 = 4 + (4 - (msg.length + 5) % 4) % 4 := by omega
    rw [pad, hlen, List.replicate_add]
    rfl
  rw [append_append, micPad_eq (by rw [hn]; omega), hn, append_append, List.append_assoc, hpad]

/-- **One message.** Whatever pieces it comes in, it gets its Michael value, and the state is
that of the key again. -/
theorem getmic_eq (key : Nat → UInt8) (chunks : List (List UInt8)) :
    rtwSecgetmic (chunks.foldl rtwSecmicappend (rtwSecmicsetkey key)) = michael key chunks.flatten
      ∧ getmicState (chunks.foldl rtwSecmicappend (rtwSecmicsetkey key)) = rtwSecmicsetkey key := by
  have hempty := setkey_empty key
  have hpadded := padded_eq chunks.flatten hempty
  have hlen : (chunks.flatten ++ pad chunks.flatten.length).length % 4 = 0 := by
    rw [List.length_append, pad, List.length_cons, List.length_replicate]
    omega
  rw [append_chunks]
  refine ⟨?_, ?_⟩
  · have hkey : ((rtwSecmicsetkey key).l, (rtwSecmicsetkey key).r)
        = (leWord (key 0) (key 1) (key 2) (key 3), leWord (key 4) (key 5) (key 6) (key 7)) := by
      rw [leWord_eq, leWord_eq]
      rfl
    have hwords := append_words _ (rtwSecmicsetkey key) hempty hlen
    rw [hkey] at hwords
    unfold rtwSecgetmic
    dsimp only
    rw [hpadded, hwords]
    rfl
  · obtain ⟨h0, h1⟩ := keys_append (rtwSecmicsetkey key) (chunks.flatten ++ pad chunks.flatten.length)
    unfold getmicState secmicclear
    rw [hpadded, h0, h1]
    rfl

/-- The MICs of some messages, one after another under one `struct mic_data`. -/
def micsOf (d : MicData) : List (List (List UInt8)) → List (List UInt8)
  | [] => []
  | chunks :: msgs =>
    let d := chunks.foldl rtwSecmicappend d
    rtwSecgetmic d :: micsOf (getmicState d) msgs

/-- **One message does not change the next.** -/
theorem micsOf_eq (key : Nat → UInt8) (msgs : List (List (List UInt8))) :
    micsOf (rtwSecmicsetkey key) msgs = msgs.map fun chunks => michael key chunks.flatten := by
  induction msgs with
  | nil => rfl
  | cons chunks msgs ih =>
    obtain ⟨hmic, hstate⟩ := getmic_eq key chunks
    rw [micsOf, hmic, hstate, ih]
    rfl

end Michael

end Rtl8812au
