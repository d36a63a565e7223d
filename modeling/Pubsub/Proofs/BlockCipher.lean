import Mathlib.Data.List.Basic
import Pubsub.Crypto.Cbc
import Pubsub.Proofs.PercentCoding

/-!
# Deciphering undoes enciphering

A round of the cipher is made of layers, and each has its inverse: the substitution box a second
box, the shift of the rows the shift back, the matrix that columns are multiplied by the inverse
matrix, and the addition of a round key itself. So what was enciphered is deciphered with the same
round keys, whatever they are. The chain inherits this block by block, and data of whole blocks are
their blocks.

The one layer that takes an argument is the matrix. Multiplication by it is additive, so it is
enough to look at columns with one byte, and for these there are 256 cases.
-/

namespace Pubsub

namespace Aes

/-! ## Adding -/

namespace Column

theorem xor_xor_self (p q : Column) : (p.xor q).xor q = p := by
  simp only [xor, UInt8.xor_assoc, UInt8.xor_self, UInt8.xor_zero]

end Column

namespace Block

/-- A key that is added twice is gone. -/
@[simp] theorem xor_xor_self (p q : Block) : (p.xor q).xor q = p := by
  simp [xor, Column.xor_xor_self]

/-- What undoes a function on columns undoes it on blocks. -/
theorem map_map_eq_self {f g : Column → Column} (h : ∀ c, g (f c) = c) (p : Block) :
    (p.map f).map g = p := by
  simp [map, h]

end Block

/-! ## The layers -/

/-- **The two boxes are inverse to each other.** -/
theorem restore_substitute (x : UInt8) : restore (substitute x) = x :=
  forall_uint8 (P := fun x => restore (substitute x) = x) (by decide +kernel) x

theorem map_restore_substitute (p : Column) : (p.map substitute).map restore = p := by
  simp [Column.map, restore_substitute]

@[simp] theorem unshiftRows_shiftRows (p : Block) : unshiftRows (shiftRows p) = p := rfl

/-! ## The matrix -/

/-- What doubling adds to the shifted byte is decided by the top bit. -/
theorem double_eq (x : UInt8) :
    double x = (x <<< 1) ^^^ (bif x.toBitVec.msb then 0x1b else 0) :=
  forall_uint8 (P := fun x => double x = (x <<< 1) ^^^ (bif x.toBitVec.msb then 0x1b else 0))
    (by decide +kernel) x

/-- **Doubling is additive.** -/
theorem double_xor (x y : UInt8) : double (x ^^^ y) = double x ^^^ double y := by
  have hmsb : (x ^^^ y).toBitVec.msb = (x.toBitVec.msb ^^ y.toBitVec.msb) := by
    rw [UInt8.toBitVec_xor, BitVec.msb_xor]
  have hcarry : ∀ b c : Bool, (bif b ^^ c then (0x1b : UInt8) else 0)
      = (bif b then 0x1b else 0) ^^^ (bif c then 0x1b else 0) := by
    decide
  rw [double_eq, double_eq, double_eq, UInt8.shiftLeft_xor, hmsb, hcarry]
  ac_rfl

theorem times3_xor (x y : UInt8) : times3 (x ^^^ y) = times3 x ^^^ times3 y := by
  simp only [times3, double_xor]
  ac_rfl

theorem times9_xor (x y : UInt8) : times9 (x ^^^ y) = times9 x ^^^ times9 y := by
  simp only [times9, double_xor]
  ac_rfl

theorem times11_xor (x y : UInt8) : times11 (x ^^^ y) = times11 x ^^^ times11 y := by
  simp only [times11, double_xor]
  ac_rfl

theorem times13_xor (x y : UInt8) : times13 (x ^^^ y) = times13 x ^^^ times13 y := by
  simp only [times13, double_xor]
  ac_rfl

theorem times14_xor (x y : UInt8) : times14 (x ^^^ y) = times14 x ^^^ times14 y := by
  simp only [times14, double_xor]
  ac_rfl

theorem mixColumn_xor (p q : Column) :
    mixColumn (p.xor q) = (mixColumn p).xor (mixColumn q) := by
  simp only [mixColumn, Column.xor, double_xor, times3_xor, Column.mk.injEq]
  refine ⟨?_, ?_, ?_, ?_⟩ <;> ac_rfl

theorem unmixColumn_xor (p q : Column) :
    unmixColumn (p.xor q) = (unmixColumn p).xor (unmixColumn q) := by
  simp only [unmixColumn, Column.xor, times9_xor, times11_xor, times13_xor, times14_xor,
    Column.mk.injEq]
  refine ⟨?_, ?_, ?_, ?_⟩ <;> ac_rfl

/-- The matrices are inverse to each other on columns with one byte. -/
theorem unmixColumn_mixColumn_single (x : UInt8) :
    unmixColumn (mixColumn ⟨x, 0, 0, 0⟩) = ⟨x, 0, 0, 0⟩
      ∧ unmixColumn (mixColumn ⟨0, x, 0, 0⟩) = ⟨0, x, 0, 0⟩
      ∧ unmixColumn (mixColumn ⟨0, 0, x, 0⟩) = ⟨0, 0, x, 0⟩
      ∧ unmixColumn (mixColumn ⟨0, 0, 0, x⟩) = ⟨0, 0, 0, x⟩ :=
  forall_uint8 (P := fun x => unmixColumn (mixColumn ⟨x, 0, 0, 0⟩) = ⟨x, 0, 0, 0⟩
    ∧ unmixColumn (mixColumn ⟨0, x, 0, 0⟩) = ⟨0, x, 0, 0⟩
    ∧ unmixColumn (mixColumn ⟨0, 0, x, 0⟩) = ⟨0, 0, x, 0⟩
    ∧ unmixColumn (mixColumn ⟨0, 0, 0, x⟩) = ⟨0, 0, 0, x⟩) (by decide +kernel) x

/-- **The two matrices are inverse to each other.** -/
theorem unmixColumn_mixColumn (p : Column) : unmixColumn (mixColumn p) = p := by
  have hsum : p = ((⟨p.a, 0, 0, 0⟩ : Column).xor ⟨0, p.b, 0, 0⟩).xor
      ((⟨0, 0, p.c, 0⟩ : Column).xor ⟨0, 0, 0, p.d⟩) := by
    simp [Column.xor]
  rw [hsum]
  simp only [mixColumn_xor, unmixColumn_xor, unmixColumn_mixColumn_single]

/-! ## Rounds -/

/-- **The rounds are undone with the same keys.** -/
theorem decipherRounds_encipherRounds (keys : List Block) (p : Block) :
    decipherRounds keys (encipherRounds keys p) = p := by
  induction keys generalizing p with
  | nil => rfl
  | cons key rest ih =>
    have hbytes := Block.map_map_eq_self map_restore_substitute
    cases rest with
    | nil =>
      show (unshiftRows (((shiftRows (p.map (·.map substitute))).xor key).xor key)).map
        (·.map restore) = p
      rw [Block.xor_xor_self, unshiftRows_shiftRows, hbytes]
    | cons next others =>
      have hcolumns := Block.map_map_eq_self unmixColumn_mixColumn
      show (unshiftRows (((decipherRounds (next :: others) (encipherRounds (next :: others)
        (((shiftRows (p.map (·.map substitute))).map mixColumn).xor key))).xor key).map
          unmixColumn)).map (·.map restore) = p
      rw [ih, Block.xor_xor_self, hcolumns, unshiftRows_shiftRows, hbytes]

/-- **A block is deciphered with the keys that it was enciphered with.** -/
theorem decipher_encipher (keys : List Block) (p : Block) :
    decipher keys (encipher keys p) = p := by
  cases keys with
  | nil => rfl
  | cons key rest => simp [encipher, decipher, decipherRounds_encipherRounds]

/-! ## Blocks and bytes -/

@[simp] theorem blocks?_bytesOf (blocks : List Block) : blocks? (bytesOf blocks) = some blocks := by
  induction blocks with
  | nil => rfl
  | cons block rest ih =>
    show (blocks? (bytesOf rest)).map (block :: ·) = some (block :: rest)
    rw [ih]
    rfl

theorem length_bytesOf (blocks : List Block) : (bytesOf blocks).length = 16 * blocks.length := by
  induction blocks with
  | nil => rfl
  | cons block rest ih =>
    have hcons : bytesOf (block :: rest) = block.bytes ++ bytesOf rest := rfl
    have hblock : block.bytes.length = 16 := rfl
    rw [hcons, List.length_append, ih, hblock, List.length_cons]
    omega

/-- Sixteen bytes are those of a block. -/
theorem exists_block {data : Bytes} (h : data.length = 16) : ∃ block, Block.bytes block = data :=
  match data, h with
  | [a, b, c, d, e, f, g, h, i, j, k, l, m, n, o, p], _ =>
    ⟨⟨⟨a, b, c, d⟩, ⟨e, f, g, h⟩, ⟨i, j, k, l⟩, ⟨m, n, o, p⟩⟩, rfl⟩

/-- **Bytes that fill blocks are the bytes of blocks.** -/
theorem exists_bytesOf {data : Bytes} {n : Nat} (h : data.length = 16 * n) :
    ∃ blocks, bytesOf blocks = data := by
  induction n generalizing data with
  | zero => exact ⟨[], (List.eq_nil_of_length_eq_zero h).symm⟩
  | succ n ih =>
    have htake : (data.take 16).length = 16 := by
      rw [List.length_take]
      omega
    have hdrop : (data.drop 16).length = 16 * n := by
      rw [List.length_drop]
      omega
    obtain ⟨block, hblock⟩ := exists_block htake
    obtain ⟨rest, hrest⟩ := ih hdrop
    refine ⟨block :: rest, ?_⟩
    show block.bytes ++ bytesOf rest = data
    rw [hblock, hrest, List.take_append_drop]

end Aes

namespace Cbc

/-! ## The chain -/

/-- **A chain is deciphered from the vector that it was started from.** -/
theorem decipherChain_encipherChain (keys : List Aes.Block) (vector : Aes.Block)
    (blocks : List Aes.Block) :
    decipherChain keys vector (encipherChain keys vector blocks) = blocks := by
  induction blocks generalizing vector with
  | nil => rfl
  | cons block rest ih =>
    simp [encipherChain, decipherChain, Aes.decipher_encipher, ih]

theorem length_encipherChain (keys : List Aes.Block) (vector : Aes.Block)
    (blocks : List Aes.Block) : (encipherChain keys vector blocks).length = blocks.length := by
  induction blocks generalizing vector with
  | nil => rfl
  | cons block rest ih => simp [encipherChain, ih]

theorem length_decipherChain (keys : List Aes.Block) (vector : Aes.Block)
    (blocks : List Aes.Block) : (decipherChain keys vector blocks).length = blocks.length := by
  induction blocks generalizing vector with
  | nil => rfl
  | cons block rest ih => simp [decipherChain, ih]

/-! ## Sizes -/

/-- **Nothing is refused that has the sizes of the mode.** -/
theorem exists_blocks {key vector data : Bytes} {n : Nat} (hkey : key.length = 32)
    (hvector : vector.length = blockSize) (hdata : data.length = blockSize * n) :
    ∃ keys start blocks, keys? key = .ok keys ∧ vector? vector = .ok start
      ∧ data? data = .ok blocks ∧ data = Aes.bytesOf blocks := by
  obtain ⟨halves, rfl⟩ := Aes.exists_bytesOf (n := 2) hkey
  obtain ⟨start, rfl⟩ := Aes.exists_block hvector
  obtain ⟨blocks, rfl⟩ := Aes.exists_bytesOf hdata
  obtain ⟨low, high, rfl⟩ : ∃ low high, halves = [low, high] := by
    refine List.length_eq_two.1 ?_
    rw [Aes.length_bytesOf] at hkey
    omega
  have hstart : Aes.blocks? start.bytes = some [start] := Aes.blocks?_bytesOf [start]
  exact ⟨Aes.Key.rounds ⟨low, high⟩, start, blocks, by simp [keys?], by simp [vector?, hstart],
    by simp [data?], rfl⟩

/-- **What is enciphered is deciphered again**, if the sizes are those of the mode, and the
ciphertext is as long as the data. -/
theorem decrypt_encrypt {key vector data : Bytes} {n : Nat} (hkey : key.length = 32)
    (hvector : vector.length = blockSize) (hdata : data.length = blockSize * n) :
    ∃ ciphertext, encrypt key vector data = .ok ciphertext
      ∧ ciphertext.length = data.length ∧ decrypt key vector ciphertext = .ok data := by
  obtain ⟨keys, start, blocks, hkeys, hstart, hblocks, rfl⟩ := exists_blocks hkey hvector hdata
  refine ⟨Aes.bytesOf (encipherChain keys start blocks), ?_, ?_, ?_⟩
  · simp [encrypt, hkeys, hstart, hblocks, bind, Except.bind, pure, Except.pure]
  · rw [Aes.length_bytesOf, Aes.length_bytesOf, length_encipherChain]
  · simp [decrypt, data?, hkeys, hstart, decipherChain_encipherChain, bind, Except.bind, pure,
      Except.pure]

/-- The sizes that the mode has a meaning for, and something to decipher. -/
structure Fits (key vector data : Bytes) : Prop where
  key : key.length = 32
  vector : vector.length = blockSize
  nonempty : data ≠ []
  whole : blockSize ∣ data.length

/-- **What fits is deciphered**, and stays as long as it is. -/
theorem Fits.exists_decrypt {key vector data : Bytes} (h : Fits key vector data) :
    ∃ padded, decrypt key vector data = .ok padded ∧ padded.length = data.length := by
  obtain ⟨n, hdata⟩ := h.whole
  obtain ⟨keys, start, blocks, hkeys, hstart, hblocks, rfl⟩ := exists_blocks h.key h.vector hdata
  refine ⟨Aes.bytesOf (decipherChain keys start blocks), ?_, ?_⟩
  · simp [decrypt, hkeys, hstart, hblocks, bind, Except.bind, pure, Except.pure]
  · rw [Aes.length_bytesOf, Aes.length_bytesOf, length_decipherChain]

/-! ## Filling -/

theorem length_pad (data : Bytes) :
    (pad data).length = blockSize * (data.length / blockSize + 1) := by
  simp only [pad, blockSize, List.length_append, List.length_replicate]
  omega

/-- **Data are cut exactly where a filling begins**: up to sixteen bytes, each of which is their
number. -/
theorem unpad?_eq_some_iff {padded data : Bytes} :
    unpad? padded = some data
      ↔ ∃ n, 0 < n ∧ n ≤ blockSize ∧ padded = data ++ List.replicate n (UInt8.ofNat n) := by
  have h16 : blockSize = 16 := rfl
  constructor
  · intro h
    unfold unpad? at h
    split at h
    · cases h
    · rename_i last _
      dsimp only at h
      split at h
      · rename_i hfilled
        simp only [Bool.and_eq_true, decide_eq_true_eq, beq_iff_eq] at hfilled
        obtain ⟨⟨⟨hpos, hsmall⟩, -⟩, hdrop⟩ := hfilled
        cases h
        refine ⟨last.toNat, hpos, hsmall, ?_⟩
        rw [UInt8.ofNat_toNat, ← hdrop, List.take_append_drop]
      · cases h
  · rintro ⟨n, hpos, hsmall, rfl⟩
    have hnat : (UInt8.ofNat n).toNat = n := by
      rw [UInt8.toNat_ofNat', Nat.mod_eq_of_lt (by omega)]
    have hlast : (data ++ List.replicate n (UInt8.ofNat n)).getLast? = some (UInt8.ofNat n) := by
      rw [List.getLast?_append, List.getLast?_replicate, if_neg (by omega)]
      rfl
    simp [unpad?, hlast, hnat, hpos, hsmall]

/-- **What was filled up is cut off again.** -/
theorem unpad?_pad (data : Bytes) : unpad? (pad data) = some data := by
  refine unpad?_eq_some_iff.2 ⟨blockSize - data.length % blockSize, ?_, Nat.sub_le _ _, rfl⟩
  unfold blockSize
  omega

end Cbc

end Pubsub
