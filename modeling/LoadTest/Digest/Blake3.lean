/-
BLAKE3, unkeyed, with 32 bytes of output.

The input is cut into chunks of 1024 bytes and every chunk into blocks of 64.
A chunk is compressed block by block into a chaining value; chaining values are
joined in pairs up a binary tree whose left subtree holds the largest power of
two of chunks that leaves something for the right one. The compression at the
top is marked as the root, and its words are the hash.

The tree is written here as a recursion on the length of the input, so nothing
depends on how the input arrives.
-/

set_option autoImplicit false

namespace LoadTest.Blake3

/-! ## Words -/

/-- The eight words every chaining value starts from. -/
def iv : Vector UInt32 8 :=
  #v[0x6A09E667, 0xBB67AE85, 0x3C6EF372, 0xA54FF53A, 0x510E527F, 0x9B05688C, 0x1F83D9AB,
    0x5BE0CD19]

/-- Rotation to the right. -/
def rotr (x n : UInt32) : UInt32 := (x >>> n) ||| (x <<< (32 - n))

/-- The word that up to four bytes form, the first byte lowest. -/
def word (bs : List UInt8) : UInt32 :=
  bs.foldr (fun b w => (w <<< 8) ||| b.toUInt32) 0

/-- The four bytes of a word, the lowest first. -/
def wordBytes (w : UInt32) : List UInt8 :=
  [w.toUInt8, (w >>> 8).toUInt8, (w >>> 16).toUInt8, (w >>> 24).toUInt8]

/-- The sixteen words of a block; missing bytes are zero. -/
def blockWords (bs : List UInt8) : Vector UInt32 16 :=
  Vector.ofFn fun i => word ((bs.drop (4 * i.val)).take 4)

/-! ## Compression -/

/-- The quarter round: two message words are stirred into four state words. -/
def mix (v : Vector UInt32 16) (a b c d : Fin 16) (x y : UInt32) : Vector UInt32 16 :=
  let v := v.set a (v[a] + v[b] + x)
  let v := v.set d (rotr (v[d] ^^^ v[a]) 16)
  let v := v.set c (v[c] + v[d])
  let v := v.set b (rotr (v[b] ^^^ v[c]) 12)
  let v := v.set a (v[a] + v[b] + y)
  let v := v.set d (rotr (v[d] ^^^ v[a]) 8)
  let v := v.set c (v[c] + v[d])
  v.set b (rotr (v[b] ^^^ v[c]) 7)

/-- A round: the columns, then the diagonals. -/
def round (v m : Vector UInt32 16) : Vector UInt32 16 :=
  let v := mix v 0 4 8 12 m[0] m[1]
  let v := mix v 1 5 9 13 m[2] m[3]
  let v := mix v 2 6 10 14 m[4] m[5]
  let v := mix v 3 7 11 15 m[6] m[7]
  let v := mix v 0 5 10 15 m[8] m[9]
  let v := mix v 1 6 11 12 m[10] m[11]
  let v := mix v 2 7 8 13 m[12] m[13]
  mix v 3 4 9 14 m[14] m[15]

/-- The order of the message words in the next round. -/
def permute (m : Vector UInt32 16) : Vector UInt32 16 :=
  #v[m[2], m[6], m[3], m[10], m[7], m[0], m[4], m[13], m[1], m[11], m[12], m[5], m[9], m[14],
    m[15], m[8]]

/-- Rounds with the message words permuted in between. -/
def rounds : Nat → Vector UInt32 16 → Vector UInt32 16 → Vector UInt32 16
  | 0, v, _ => v
  | n + 1, v, m => rounds n (round v m) (permute m)

/-- A compression that is still to be done: chaining value, block and its
place. Whether it is the root is not known before all input has been seen. -/
structure Pending where
  /-- The chaining value that goes in. -/
  cv : Vector UInt32 8
  /-- The message block. -/
  block : Vector UInt32 16
  /-- The number of the chunk; zero for a join. -/
  counter : UInt64
  /-- The number of bytes in the block. -/
  len : UInt32
  /-- Domain flags. -/
  flags : UInt32

/-- The block opens a chunk. -/
def chunkStart : UInt32 := 1

/-- The block ends a chunk. -/
def chunkEnd : UInt32 := 2

/-- The block joins two chaining values. -/
def parentFlag : UInt32 := 4

/-- The block is the last of all. -/
def rootFlag : UInt32 := 8

/-- The chaining value that comes out, under additional flags. -/
def Pending.finish (p : Pending) (extra : UInt32) : Vector UInt32 8 :=
  let v : Vector UInt32 16 :=
    #v[p.cv[0], p.cv[1], p.cv[2], p.cv[3], p.cv[4], p.cv[5], p.cv[6], p.cv[7], iv[0], iv[1],
      iv[2], iv[3], p.counter.toUInt32, (p.counter >>> 32).toUInt32, p.len, p.flags ||| extra]
  let v := rounds 7 v p.block
  #v[v[0] ^^^ v[8], v[1] ^^^ v[9], v[2] ^^^ v[10], v[3] ^^^ v[11], v[4] ^^^ v[12],
    v[5] ^^^ v[13], v[6] ^^^ v[14], v[7] ^^^ v[15]]

/-! ## The tree -/

/-- One chunk from its bytes: all blocks but the last are compressed at once. -/
def chunk (counter : UInt64) (cv : Vector UInt32 8) (flags : UInt32) (bs : List UInt8) : Pending :=
  if _h : bs.length ≤ 64 then
    ⟨cv, blockWords bs, counter, UInt32.ofNat bs.length, flags ||| chunkEnd⟩
  else
    let block : Pending := ⟨cv, blockWords (bs.take 64), counter, 64, flags⟩
    chunk counter (block.finish 0) 0 (bs.drop 64)
termination_by bs.length
decreasing_by
  rw [List.length_drop]
  omega

/-- The join of two chaining values. -/
def join (l r : Vector UInt32 8) : Pending := ⟨iv, l ++ r, 0, 64, parentFlag⟩

/-- How many of `n` bytes, more than a chunk, go into the left subtree. -/
def leftLength (n : Nat) : Nat := 1024 * Nat.pow 2 ((n - 1) / 1024).log2

theorem leftLength_pos (n : Nat) : 0 < leftLength n :=
  Nat.mul_pos (by omega) (Nat.pow_pos (by omega))

theorem leftLength_lt {n : Nat} (h : 1024 < n) : leftLength n < n := by
  have hne : (n - 1) / 1024 ≠ 0 := by omega
  have hle : Nat.pow 2 ((n - 1) / 1024).log2 ≤ (n - 1) / 1024 := Nat.log2_self_le hne
  have hmul : 1024 * Nat.pow 2 ((n - 1) / 1024).log2 ≤ 1024 * ((n - 1) / 1024) :=
    Nat.mul_le_mul_left 1024 hle
  rw [leftLength]
  omega

/-- The last compression of the subtree over some bytes; `counter` is the number
of its first chunk. -/
def subtree (counter : UInt64) (bs : List UInt8) : Pending :=
  if _h : bs.length ≤ 1024 then chunk counter iv chunkStart bs
  else
    let n := leftLength bs.length
    join ((subtree counter (bs.take n)).finish 0)
      ((subtree (counter + UInt64.ofNat (n / 1024)) (bs.drop n)).finish 0)
termination_by bs.length
decreasing_by
  · have := leftLength_lt (n := bs.length) (by omega)
    rw [List.length_take]
    omega
  · have := leftLength_pos bs.length
    rw [List.length_drop]
    omega

/-- The hash of some bytes. -/
def hash (bs : List UInt8) : List UInt8 :=
  ((subtree 0 bs).finish rootFlag).toList.flatMap wordBytes

theorem length_hash (bs : List UInt8) : (hash bs).length = 32 := by
  rw [hash, List.length_flatMap]
  simp only [wordBytes, List.length_cons, List.length_nil, List.map_const', Vector.length_toList]
  decide

end LoadTest.Blake3
