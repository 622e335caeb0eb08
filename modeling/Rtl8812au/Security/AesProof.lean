import Rtl8812au.Security.Aes
import Mathlib.Data.Fintype.Basic
import Mathlib.Tactic.FinCases

/-!
# The two AES-128 implementations agree

A word of the table stands for what one byte contributes to a column: twice its S-box value, the value,
the value, and three times the value. So a round over words is substitution, row shift and column mixing
over bytes, and the word schedule holds the keys that the other implementation derives on the way.
-/

namespace Rtl8812au.Aes

open BlockMode

/-! ## Columns -/

theorem column_ofColumns (c : Fin 4 → Bytes4) (j : Fin 4) : column (ofColumns c) j = c j := by
  fin_cases j <;> rfl

theorem ofColumns_column (b : Block) : ofColumns (column b) = b := by
  funext i
  fin_cases i <;> rfl

theorem column_bitwiseXor (a b : Block) (j : Fin 4) :
    column (bitwiseXor a b) j = (column a j).xor (column b j) := rfl

/-- The words of an exclusive or. -/
def Words.xor (s t : Words) : Words := ⟨s.w0 ^^^ t.w0, s.w1 ^^^ t.w1, s.w2 ^^^ t.w2, s.w3 ^^^ t.w3⟩

theorem getWords_bitwiseXor (a b : Block) :
    getWords (bitwiseXor a b) = (getWords a).xor (getWords b) := by
  simp only [getWords, Words.xor, column_bitwiseXor, Bytes4.word_xor]

theorem putWords_getWords (b : Block) : putWords (getWords b) = b := by
  have hcol : (fun j : Fin 4 => Bytes4.ofWord (if j = 0 then (getWords b).w0 else if j = 1 then
      (getWords b).w1 else if j = 2 then (getWords b).w2 else (getWords b).w3)) = column b := by
    funext j
    fin_cases j <;> exact Bytes4.ofWord_word _
  rw [putWords, hcol, ofColumns_column]

/-! ## Mixing -/

/-- Twice a byte. -/
def double (x : UInt8) : UInt8 := add1b x ^^^ ((x &&& 0x7f) <<< 1)

/-- Nothing is carried over, since bit 7 is masked out before. -/
theorem shiftCarry_masked (x y : UInt8) : shiftCarry (x &&& 0x7f) (y &&& 0x7f) = (x &&& 0x7f) <<< 1 := by
  have hbit : (y &&& 0x7f) &&& 0x80 = 0 := by
    rw [UInt8.and_assoc]
    exact UInt8.and_zero
  rw [shiftCarry, hbit, if_neg (by decide)]

/-- The lowest bit is clear after the shift. -/
theorem shifted_even (x : UInt8) : ((x &&& 0x7f) <<< (1 : UInt8)) &&& 0xfe = (x &&& 0x7f) <<< (1 : UInt8) := by
  have hall : ∀ i : Fin 256, ((UInt8.ofNat i &&& 0x7f) <<< (1 : UInt8)) &&& 0xfe
      = (UInt8.ofNat i &&& 0x7f) <<< (1 : UInt8) := by
    decide +kernel
  have h := hall ⟨x.toNat, x.toNat_lt⟩
  rwa [UInt8.ofNat_toNat] at h

theorem mixColumn_eq (c : Bytes4) : mixColumn c =
    ⟨double c.b0 ^^^ (c.b1 ^^^ double c.b1) ^^^ (c.b2 ^^^ c.b3),
      double c.b1 ^^^ (c.b2 ^^^ double c.b2) ^^^ (c.b3 ^^^ c.b0),
      double c.b2 ^^^ (c.b3 ^^^ double c.b3) ^^^ (c.b0 ^^^ c.b1),
      double c.b3 ^^^ (c.b0 ^^^ double c.b0) ^^^ (c.b1 ^^^ c.b2)⟩ := by
  simp only [mixColumn, shiftCarry_masked, shifted_even]
  rfl

/-! ## The table -/

/-- What the byte `x` contributes to a column. -/
def contribution (x : UInt8) : Bytes4 := ⟨double (sbox x), sbox x, sbox x, sbox x ^^^ double (sbox x)⟩

/-- **Every word of the table.** -/
theorem te0Table_eq (x : UInt8) : te0Table.getD x.toNat 0 = (contribution x).word := by
  have hall : ∀ i : Fin 256, te0Table.getD i.val 0 = (contribution (UInt8.ofNat i)).word := by
    decide +kernel
  have h := hall ⟨x.toNat, x.toNat_lt⟩
  rwa [UInt8.ofNat_toNat] at h

theorem te0At_eq (w : UInt32) : te0At w = (contribution w.toUInt8).word := by
  rw [te0At, Bytes4.toNat_and_ff, te0Table_eq]

section

variable (c : Bytes4)

theorem te0_word : te0 c.word
    = Bytes4.word ⟨double (sbox c.b0), sbox c.b0, sbox c.b0, sbox c.b0 ^^^ double (sbox c.b0)⟩ := by
  rw [te0, te0At_eq, Bytes4.byte0_word, contribution]

theorem te1_word : te1 c.word
    = Bytes4.word ⟨sbox c.b1 ^^^ double (sbox c.b1), double (sbox c.b1), sbox c.b1, sbox c.b1⟩ := by
  rw [te1, te0At_eq, Bytes4.byte1_word, Bytes4.rotr_bytes (m := 1) _ rfl (by decide) (by decide)]
  rfl

theorem te2_word : te2 c.word
    = Bytes4.word ⟨sbox c.b2, sbox c.b2 ^^^ double (sbox c.b2), double (sbox c.b2), sbox c.b2⟩ := by
  rw [te2, te0At_eq, Bytes4.byte2_word, Bytes4.rotr_bytes (m := 2) _ rfl (by decide) (by decide)]
  rfl

theorem te3_word : te3 c.word
    = Bytes4.word ⟨sbox c.b3, sbox c.b3, sbox c.b3 ^^^ double (sbox c.b3), double (sbox c.b3)⟩ := by
  rw [te3, te0At_eq, Bytes4.byte3_word, Bytes4.rotr_bytes (m := 3) _ rfl (by decide) (by decide)]
  rfl

/-- In the last round and in the key schedule the masks leave the S-box value alone. -/
theorem te41_word : te41 c.word = Bytes4.word ⟨sbox c.b0, 0, 0, 0⟩ := by
  rw [te41, te0At_eq, Bytes4.byte0_word, Bytes4.shiftLeft_word]
  exact Bytes4.mask_byte _ 0 rfl

theorem te42_word : te42 c.word = Bytes4.word ⟨0, sbox c.b1, 0, 0⟩ := by
  rw [te42, te0At_eq, Bytes4.byte1_word]
  exact Bytes4.mask_byte _ 1 rfl

theorem te43_word : te43 c.word = Bytes4.word ⟨0, 0, sbox c.b2, 0⟩ := by
  rw [te43, te0At_eq, Bytes4.byte2_word]
  exact Bytes4.mask_byte _ 2 rfl

theorem te44_word : te44 c.word = Bytes4.word ⟨0, 0, 0, sbox c.b3⟩ := by
  rw [te44, te0At_eq, Bytes4.byte3_word, Bytes4.shiftRight_word]
  exact Bytes4.mask_byte _ 3 rfl

theorem te421_word : te421 c.word = Bytes4.word ⟨sbox c.b1, 0, 0, 0⟩ := by
  rw [te421, te0At_eq, Bytes4.byte1_word, Bytes4.shiftLeft_word]
  exact Bytes4.mask_byte _ 0 rfl

theorem te432_word : te432 c.word = Bytes4.word ⟨0, sbox c.b2, 0, 0⟩ := by
  rw [te432, te0At_eq, Bytes4.byte2_word]
  exact Bytes4.mask_byte _ 1 rfl

theorem te443_word : te443 c.word = Bytes4.word ⟨0, 0, sbox c.b3, 0⟩ := by
  rw [te443, te0At_eq, Bytes4.byte3_word]
  exact Bytes4.mask_byte _ 2 rfl

theorem te414_word : te414 c.word = Bytes4.word ⟨0, 0, 0, sbox c.b0⟩ := by
  rw [te414, te0At_eq, Bytes4.byte0_word, Bytes4.shiftRight_word]
  exact Bytes4.mask_byte _ 3 rfl

end

/-! ## A round -/

/-- One column of a round: the four bytes come from four columns. -/
theorem mixedColumn_word (a b c d : Bytes4) :
    te0 a.word ^^^ te1 b.word ^^^ te2 c.word ^^^ te3 d.word
      = (mixColumn ⟨sbox a.b0, sbox b.b1, sbox c.b2, sbox d.b3⟩).word := by
  rw [te0_word, te1_word, te2_word, te3_word, mixColumn_eq, ← Bytes4.word_xor, ← Bytes4.word_xor,
    ← Bytes4.word_xor]
  congr 1
  ext <;> simp only [Bytes4.xor] <;> ac_rfl

/-- One column of the last round. -/
theorem lastColumn_word (a b c d : Bytes4) :
    te41 a.word ^^^ te42 b.word ^^^ te43 c.word ^^^ te44 d.word
      = Bytes4.word ⟨sbox a.b0, sbox b.b1, sbox c.b2, sbox d.b3⟩ := by
  rw [te41_word, te42_word, te43_word, te44_word, ← Bytes4.word_xor, ← Bytes4.word_xor,
    ← Bytes4.word_xor]
  simp only [Bytes4.xor, UInt8.xor_zero, UInt8.zero_xor]

theorem roundWith_getWords (k b : Block) :
    roundWith (getWords k) (getWords b)
      = getWords (bitwiseXor (mixColumns (shiftRow (byteSub b))) k) := by
  rw [getWords_bitwiseXor]
  simp only [roundWith, getWords, Words.xor, mixColumns, column_ofColumns, mixedColumn_word]
  rfl

theorem lastRound_getWords (k b : Block) :
    lastRound (getWords k) (getWords b) = getWords (bitwiseXor (shiftRow (byteSub b)) k) := by
  rw [getWords_bitwiseXor]
  simp only [lastRound, getWords, Words.xor, lastColumn_word]
  rfl

/-! ## The keys -/

/-- The round keys that `aes128k128d` goes through. -/
def roundKey (key : AesKey) : Nat → AesKey
  | 0 => key
  | n + 1 => nextKey (roundKey key n) n

theorem rcon_eq {i : Nat} (hi : i < 10) : rcon i = Bytes4.word ⟨rconTable.getD i 0, 0, 0, 0⟩ := by
  have hall : ∀ i : Fin 10, rcon i.val = Bytes4.word ⟨rconTable.getD i.val 0, 0, 0, 0⟩ := by decide
  exact hall ⟨i, hi⟩

/-- The first word of the next key is the old one with the substituted last one, rotated, and the round
constant. -/
theorem word_nextKey (a d : Bytes4) {i : Nat} (hi : i < 10) :
    a.word ^^^ te421 d.word ^^^ te432 d.word ^^^ te443 d.word ^^^ te414 d.word ^^^ rcon i
      = Bytes4.word ⟨a.b0 ^^^ sbox d.b1 ^^^ rconTable.getD i 0, a.b1 ^^^ sbox d.b2, a.b2 ^^^ sbox d.b3,
        a.b3 ^^^ sbox d.b0⟩ := by
  rw [te421_word, te432_word, te443_word, te414_word, rcon_eq hi, ← Bytes4.word_xor, ← Bytes4.word_xor,
    ← Bytes4.word_xor, ← Bytes4.word_xor, ← Bytes4.word_xor]
  simp only [Bytes4.xor, UInt8.xor_zero]

/-- The four words that a turn of the schedule appends. -/
def nextWords (w : Words) (i : Nat) : Words :=
  let w4 := w.w0 ^^^ te421 w.w3 ^^^ te432 w.w3 ^^^ te443 w.w3 ^^^ te414 w.w3 ^^^ rcon i
  let w5 := w.w1 ^^^ w4
  let w6 := w.w2 ^^^ w5
  ⟨w4, w5, w6, w.w3 ^^^ w6⟩

theorem keySetupTurn_eq (rk : List UInt32) (i : Nat) :
    let w := nextWords (keyWords rk i) i
    keySetupTurn rk i = rk ++ [w.w0, w.w1, w.w2, w.w3] := rfl

/-- **They are the words of the next key.** -/
theorem getWords_nextKey (key : AesKey) {i : Nat} (hi : i < 10) :
    getWords (nextKey key i) = nextWords (getWords key) i := by
  simp only [getWords, nextWords, nextKey, column_ofColumns, word_nextKey _ _ hi]
  simp only [← Bytes4.word_xor]
  rfl

theorem keyWords_append {rk : List UInt32} (l : List UInt32) {k : Nat} (h : 4 * k + 4 ≤ rk.length) :
    keyWords (rk ++ l) k = keyWords rk k := by
  have hget : ∀ j, j < rk.length → (rk ++ l).getD j 0 = rk.getD j 0 := fun j hj => by
    rw [List.getD_eq_getElem?_getD, List.getD_eq_getElem?_getD, List.getElem?_append_left hj]
  rw [keyWords, keyWords, hget _ (by omega), hget _ (by omega), hget _ (by omega), hget _ (by omega)]

theorem keyWords_last {rk : List UInt32} (w : Words) {k : Nat} (h : rk.length = 4 * k) :
    keyWords (rk ++ [w.w0, w.w1, w.w2, w.w3]) k = w := by
  have hget : ∀ j, (rk ++ [w.w0, w.w1, w.w2, w.w3]).getD (4 * k + j) 0
      = [w.w0, w.w1, w.w2, w.w3].getD j 0 := fun j => by
    rw [List.getD_eq_getElem?_getD, List.getD_eq_getElem?_getD, List.getElem?_append_right (by omega), h,
      Nat.add_sub_cancel_left]
  rw [keyWords, hget, hget, hget, ← Nat.add_zero (4 * k), hget]
  rfl

/-- **The schedule holds the round keys.** After any number of turns, each group of four words is a
round key. -/
theorem schedule_turns (key : AesKey) : ∀ n ≤ 10,
    let w := getWords key
    let rk := (List.range n).foldl keySetupTurn [w.w0, w.w1, w.w2, w.w3]
    rk.length = 4 * (n + 1) ∧ ∀ k ≤ n, keyWords rk k = getWords (roundKey key k) := by
  intro n
  induction n with
  | zero =>
      intro _
      refine ⟨rfl, fun k hk => ?_⟩
      obtain rfl : k = 0 := Nat.le_zero.mp hk
      rfl
  | succ n ih =>
      intro hn
      obtain ⟨hlen, hkeys⟩ := ih (Nat.le_of_succ_le hn)
      dsimp only
      rw [List.range_succ, List.foldl_append, List.foldl_cons, List.foldl_nil]
      generalize (List.range n).foldl keySetupTurn _ = rk at hlen hkeys ⊢
      rw [keySetupTurn_eq]
      refine ⟨?_, fun k hk => ?_⟩
      · rw [List.length_append, hlen]
        rfl
      · by_cases hlast : k = n + 1
        · subst hlast
          rw [keyWords_last _ hlen, hkeys n (Nat.le_refl n), roundKey, getWords_nextKey _ (by omega)]
        · rw [keyWords_append _ (by omega)]
          exact hkeys k (by omega)

theorem schedule (key : AesKey) {k : Nat} (hk : k ≤ 10) :
    keyWords (rijndaelKeySetupEnc key) k = getWords (roundKey key k) :=
  (schedule_turns key 10 (Nat.le_refl 10)).2 k hk

/-! ## The rounds -/

/-- The block after `n` of the nine full rounds. -/
def blockAfter (key : AesKey) (data : Block) : Nat → Block
  | 0 => bitwiseXor key data
  | n + 1 => bitwiseXor (mixColumns (shiftRow (byteSub (blockAfter key data n)))) (roundKey key (n + 1))

/-- What the loop of `aes128k128d` has after the turn `n`. -/
theorem aesTurns (key : AesKey) (data : Block) : ∀ n ≤ 9,
    (List.range (n + 1)).foldl (aesTurn data) (key, fun _ => 0)
      = (roundKey key (n + 1), blockAfter key data n) := by
  intro n
  induction n with
  | zero => intro _; rfl
  | succ n ih =>
      intro hn
      rw [List.range_succ, List.foldl_append, ih (by omega), List.foldl_cons, List.foldl_nil, aesTurn,
        if_neg (by omega), if_neg (by omega)]
      rfl

theorem aes128k128d_eq (key : AesKey) (data : Block) : aes128k128d key data
    = bitwiseXor (shiftRow (byteSub (blockAfter key data 9))) (roundKey key 10) := by
  rw [aes128k128d, List.range_succ, List.foldl_append, aesTurns key data 9 (Nat.le_refl 9),
    List.foldl_cons, List.foldl_nil, aesTurn, if_neg (by omega), if_pos rfl]

/-- **The loop over words**, from any round on: it ends after an odd number of rounds. -/
theorem encryptLoop_eq (key : AesKey) (data : Block) : ∀ r p, p + 2 * r + 1 ≤ 9 →
    encryptLoop (rijndaelKeySetupEnc key) (r + 1) p (getWords (blockAfter key data p))
      = (getWords (blockAfter key data (p + 2 * r + 1)), p + 2 * r + 2) := by
  intro r
  induction r with
  | zero =>
      intro p hp
      rw [encryptLoop, if_pos rfl, schedule key (by omega), roundWith_getWords]
      rfl
  | succ r ih =>
      intro p hp
      have hround : ∀ q, q + 1 ≤ 10 → roundWith (keyWords (rijndaelKeySetupEnc key) (q + 1))
          (getWords (blockAfter key data q)) = getWords (blockAfter key data (q + 1)) := fun q hq => by
        rw [schedule key hq, roundWith_getWords, blockAfter]
      have hind := ih (p + 2) (by omega)
      have hrounds : p + 2 + 2 * r + 1 = p + 2 * (r + 1) + 1 := by omega
      have hend : p + 2 + 2 * r + 2 = p + 2 * (r + 1) + 2 := by omega
      rw [hrounds, hend] at hind
      rw [encryptLoop, if_neg (by omega), hround p (by omega), hround (p + 1) (by omega), hind]

theorem Words.xor_comm (s t : Words) : s.xor t = t.xor s :=
  Words.ext (UInt32.xor_comm _ _) (UInt32.xor_comm _ _) (UInt32.xor_comm _ _) (UInt32.xor_comm _ _)

theorem rijndaelEncrypt_eq (rk : List UInt32) (pt : Block) : rijndaelEncrypt rk pt =
    let t := encryptLoop rk 5 0 ((getWords pt).xor (keyWords rk 0))
    putWords (lastRound (keyWords rk t.2) t.1) := rfl

/-- **The two implementations agree** on every key and every block. -/
theorem aes_implementations_agree (key : AesKey) (data : Block) :
    aes128k128d key data = rijndaelEncrypt (rijndaelKeySetupEnc key) data := by
  have hloop := encryptLoop_eq key data 4 0 (Nat.le_refl 9)
  rw [blockAfter, getWords_bitwiseXor] at hloop
  rw [rijndaelEncrypt_eq, schedule key (Nat.zero_le 10), Words.xor_comm, roundKey, hloop]
  dsimp only
  rw [schedule key (Nat.le_refl 10), lastRound_getWords, putWords_getWords, aes128k128d_eq]

end Rtl8812au.Aes
