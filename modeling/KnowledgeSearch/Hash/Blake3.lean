/-
  KnowledgeSearch/Hash/Blake3.lean
  ================================
  **The BLAKE3 digest of a byte string.**

  The input is cut into chunks of 1024 bytes and each chunk into blocks of 64.  The
  blocks of a chunk are compressed one after another into the chunk's chaining
  value, and the chaining values of all chunks are joined in pairs, level by level,
  an odd one out moving up as it is.  The last compression carries a flag of its
  own, so that no inner value can be taken for a digest.
-/
namespace KnowledgeSearch.Blake3

/-! ### Compression -/

/-- Eight words that a compression hands on. -/
abbrev Chaining := Vector UInt32 8

abbrev Block := Vector UInt32 16

def initial : Chaining :=
  #v[0x6A09E667, 0xBB67AE85, 0x3C6EF372, 0xA54FF53A, 0x510E527F, 0x9B05688C, 0x1F83D9AB,
    0x5BE0CD19]

/-- Where each word of a block goes between two rounds. -/
def permutation : Vector (Fin 16) 16 := #v[2, 6, 3, 10, 7, 0, 4, 13, 1, 11, 12, 5, 9, 14, 15, 8]

namespace Flag

def chunkStart : UInt32 := 1

def chunkEnd : UInt32 := 2

def parent : UInt32 := 4

def root : UInt32 := 8

end Flag

def rotateRight (word : UInt32) (bits : UInt32) : UInt32 :=
  (word >>> bits) ||| (word <<< (32 - bits))

/-- Mixes two words of the message into four words of the state. -/
def mix (a b c d : Fin 16) (x y : UInt32) (s : Block) : Block :=
  let a₁ := s[a] + s[b] + x
  let d₁ := rotateRight (s[d] ^^^ a₁) 16
  let c₁ := s[c] + d₁
  let b₁ := rotateRight (s[b] ^^^ c₁) 12
  let a₂ := a₁ + b₁ + y
  let d₂ := rotateRight (d₁ ^^^ a₂) 8
  let c₂ := c₁ + d₂
  let b₂ := rotateRight (b₁ ^^^ c₂) 7
  (((s.set a a₂).set b b₂).set c c₂).set d d₂

/-- Mixes a message into the columns and then into the diagonals of the state. -/
def round (m s : Block) : Block :=
  s |> mix 0 4 8 12 m[0] m[1] |> mix 1 5 9 13 m[2] m[3]
    |> mix 2 6 10 14 m[4] m[5] |> mix 3 7 11 15 m[6] m[7]
    |> mix 0 5 10 15 m[8] m[9] |> mix 1 6 11 12 m[10] m[11]
    |> mix 2 7 8 13 m[12] m[13] |> mix 3 4 9 14 m[14] m[15]

def permute (m : Block) : Block := permutation.map fun i => m[i]

/-- Some rounds, the message being permuted between them. -/
def rounds : Nat → Block → Block → Block
  | 0, _, s => s
  | n + 1, m, s => rounds n (permute m) (round m s)

/-- Compresses a block of the given length into a chaining value. -/
def compress (h : Chaining) (m : Block) (counter : UInt64) (length flags : UInt32) : Chaining :=
  let state : Block :=
    #v[h[0], h[1], h[2], h[3], h[4], h[5], h[6], h[7], initial[0], initial[1], initial[2],
      initial[3], counter.toUInt32, (counter >>> 32).toUInt32, length, flags]
  let s := rounds 7 m state
  Vector.ofFn fun i : Fin 8 => s[i.val] ^^^ s[i.val + 8]

/-! ### Chunks -/

/-- A word of four bytes, the lowest first; missing bytes are zero. -/
def word : List UInt8 → UInt32
  | [] => 0
  | byte :: bytes => byte.toUInt32 ||| (word bytes <<< 8)

/-- The block of at most 64 bytes. -/
def block (bytes : List UInt8) : Block :=
  Vector.ofFn fun i : Fin 16 => word ((bytes.drop (4 * i.val)).take 4)

/-- Cuts a list into pieces of a size; the empty list is one empty piece. -/
def pieces {α : Type} (size : Nat) (items : List α) : List (List α) :=
  if _ : size = 0 ∨ items.length ≤ size then [items]
  else items.take size :: pieces size (items.drop size)
termination_by items.length
decreasing_by
  rw [List.length_drop]
  omega

/-- Compresses the blocks of a chunk from a chaining value on; `flags` marks the
    first of them and `last` is added to the flags of the last. -/
def chunkBlocks (counter : UInt64) (last : UInt32) (h : Chaining) (flags : UInt32) :
    List (List UInt8) → Chaining
  | [] => h
  | [bytes] => compress h (block bytes) counter bytes.length.toUInt32 (flags ||| last)
  | bytes :: rest =>
    chunkBlocks counter last (compress h (block bytes) counter 64 flags) 0 rest

/-- The chaining value of the chunk with the given number. -/
def chunk (finalFlags : UInt32) (bytes : List UInt8) (counter : Nat) : Chaining :=
  chunkBlocks counter.toUInt64 (Flag.chunkEnd ||| finalFlags) initial Flag.chunkStart
    (pieces 64 bytes)

/-! ### The tree -/

/-- The chaining value of two neighbours. -/
def parent (finalFlags : UInt32) (left right : Chaining) : Chaining :=
  compress initial (left ++ right) 0 64 (Flag.parent ||| finalFlags)

/-- Joins neighbours in pairs. -/
def pairUp : List Chaining → List Chaining
  | left :: right :: rest => parent 0 left right :: pairUp rest
  | rest => rest

theorem length_pairUp_le (values : List Chaining) : (pairUp values).length ≤ values.length := by
  fun_induction pairUp values with
  | case1 left right rest ih => simp only [List.length_cons]; omega
  | case2 rest => exact Nat.le_refl _

/-- Joins chaining values until two are left, and those into the digest. -/
def joinAll : List Chaining → Chaining
  | [] => initial
  | [single] => single
  | [left, right] => parent Flag.root left right
  | a :: b :: c :: rest => joinAll (pairUp (a :: b :: c :: rest))
termination_by values => values.length
decreasing_by
  have := length_pairUp_le (c :: rest)
  simp only [pairUp, List.length_cons] at *
  omega

/-! ### The digest -/

def digest (bytes : List UInt8) : Chaining :=
  match pieces 1024 bytes with
  | [single] => chunk Flag.root single 0
  | chunks => joinAll (chunks.mapIdx fun counter bytes => chunk 0 bytes counter)

def hexDigit (n : UInt32) : Char := Nat.digitChar (n % 16).toNat

/-- The eight digits of a word, its lowest byte first. -/
def hexWord (w : UInt32) : List Char :=
  [0, 8, 16, 24].flatMap fun (shift : UInt32) =>
    [hexDigit (w >>> (shift + 4)), hexDigit (w >>> shift)]

/-- The digest of a text's bytes, as 64 hexadecimal digits. -/
def ofString (text : String) : String :=
  String.ofList ((digest text.toUTF8.toList).toList.flatMap hexWord)

end KnowledgeSearch.Blake3
