/-!
# The ChaCha block function

One block of the ChaCha stream with twelve rounds: sixteen words made from a key of eight words and a
block counter of 64 bits; the two nonce words are zero. `doubleRound` mixes the columns and then the
diagonals of the four-by-four arrangement of the words.
-/

namespace PlanarNewton.ChaCha

/-- The words of a block, row by row. -/
abbrev Words := Vector UInt32 16

/-- A key: eight words. -/
abbrev Key := Vector UInt32 8

/-- The word turned to the left by `n` bits. -/
def rotateLeft (w n : UInt32) : UInt32 :=
  (w <<< n) ||| (w >>> (32 - n))

/-- Mixes four of the words. -/
def quarterRound (s : Words) (a b c d : Fin 16) : Words :=
  let s := s.set a (s[a] + s[b])
  let s := s.set d (rotateLeft (s[d] ^^^ s[a]) 16)
  let s := s.set c (s[c] + s[d])
  let s := s.set b (rotateLeft (s[b] ^^^ s[c]) 12)
  let s := s.set a (s[a] + s[b])
  let s := s.set d (rotateLeft (s[d] ^^^ s[a]) 8)
  let s := s.set c (s[c] + s[d])
  s.set b (rotateLeft (s[b] ^^^ s[c]) 7)

/-- Mixes each column, and then each diagonal. -/
def doubleRound (s : Words) : Words :=
  let s := quarterRound s 0 4 8 12
  let s := quarterRound s 1 5 9 13
  let s := quarterRound s 2 6 10 14
  let s := quarterRound s 3 7 11 15
  let s := quarterRound s 0 5 10 15
  let s := quarterRound s 1 6 11 12
  let s := quarterRound s 2 7 8 13
  quarterRound s 3 4 9 14

/-- The words that a block starts from: four constants, the key, the counter and the nonce. -/
def start (key : Key) (counter : UInt64) : Words :=
  #v[0x61707865, 0x3320646e, 0x79622d32, 0x6b206574,
     key[0], key[1], key[2], key[3],
     key[4], key[5], key[6], key[7],
     counter.toUInt32, (counter >>> 32).toUInt32, 0, 0]

/-- The block of a stream with the given number. -/
def block (key : Key) (counter : UInt64) : Words :=
  let s := start key counter
  (Nat.repeat doubleRound 6 s).zipWith (· + ·) s

end PlanarNewton.ChaCha
