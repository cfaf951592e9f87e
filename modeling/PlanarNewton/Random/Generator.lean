import PlanarNewton.Plane.Vector
import PlanarNewton.Random.ChaCha

/-!
# The random generator

A generator is a place in one ChaCha stream, read as numbers of 64 bits: a key and the count of
numbers taken. `output key i` is number `i` of the stream, `next` takes one number and moves on by
one, and `point` takes two for a point of a box.
-/

namespace PlanarNewton

/-- Number `i` of a block of eight, made of two words with the low one first. -/
def ChaCha.number (words : ChaCha.Words) (i : Fin 8) : UInt64 :=
  have h : 2 * i.val + 1 < 16 := by omega
  words[2 * i.val].toUInt64 ||| (words[2 * i.val + 1].toUInt64 <<< 32)

/-- A place in the stream of a key, with the block of eight numbers around it at hand. -/
structure Generator where
  key : ChaCha.Key
  /-- How many numbers were taken. -/
  position : Nat
  words : ChaCha.Words
  words_eq : words = ChaCha.block key (UInt64.ofNat (position / 8))

namespace Generator

/-- One step of the congruential sequence that a seed is expanded with. -/
def advanceSeed (s : UInt64) : UInt64 :=
  s * 6364136223846793005 + 11634580027462260723

/-- The key word that a state of the sequence gives: its upper bits, folded and turned. -/
def keyWord (s : UInt64) : UInt32 :=
  let folded := (((s >>> 18) ^^^ s) >>> 27).toUInt32
  let turn := (s >>> 59).toUInt32
  (folded >>> turn) ||| (folded <<< ((32 - turn) % 32))

/-- The key that a seed expands to. -/
def keyOfSeed (seed : UInt64) : ChaCha.Key :=
  Vector.ofFn fun i => keyWord (Nat.repeat advanceSeed (i.val + 1) seed)

/-- The place in the stream of a key where `position` numbers were taken. -/
def atPosition (key : ChaCha.Key) (position : Nat) : Generator :=
  ⟨key, position, ChaCha.block key (UInt64.ofNat (position / 8)), rfl⟩

/-- The beginning of the stream of a seed. -/
def ofSeed (seed : UInt64) : Generator :=
  atPosition (keyOfSeed seed) 0

/-- Number `i` of the stream of a key. -/
def output (key : ChaCha.Key) (i : Nat) : UInt64 :=
  ChaCha.number (ChaCha.block key (UInt64.ofNat (i / 8))) ⟨i % 8, Nat.mod_lt _ (by decide)⟩

/-- The next number, and the generator after it. -/
def next (g : Generator) : UInt64 × Generator :=
  let n := ChaCha.number g.words ⟨g.position % 8, Nat.mod_lt _ (by decide)⟩
  if h : (g.position + 1) / 8 = g.position / 8 then
    (n, { g with position := g.position + 1, words_eq := by rw [h]; exact g.words_eq })
  else
    (n, atPosition g.key (g.position + 1))

/-- A generator is determined by its key and its position. -/
theorem ext : ∀ {g g' : Generator}, g.key = g'.key → g.position = g'.position → g = g'
  | ⟨_, _, _, rfl⟩, ⟨_, _, _, rfl⟩, rfl, rfl => rfl

/-- Taking a number gives the number at the generator's position of its stream. -/
theorem next_fst (g : Generator) : g.next.1 = output g.key g.position := by
  unfold next output
  split <;> simp [g.words_eq]

/-- Taking a number moves on by one in the same stream. -/
theorem next_snd (g : Generator) : g.next.2 = atPosition g.key (g.position + 1) := by
  unfold next
  split
  · exact ext rfl rfl
  · rfl

end Generator

/-- The number in `[0, 1)` that the upper 52 bits of `u` are the fraction of. -/
def unitInterval (u : UInt64) : Float :=
  Float.ofBits ((u >>> 12) ||| 0x3FF0000000000000) - 1.0

/-- The number between `low` and `high` that `u` stands for. -/
def uniform (low high : Float) (u : UInt64) : Float :=
  unitInterval u * (high - low) + low

/-- Takes two numbers for a point of the box between two corners, `x` from the first. -/
def Generator.point (g : Generator) (lower upper : Vec2 Float) : Vec2 Float × Generator :=
  let (u, g) := g.next
  let (v, g) := g.next
  (⟨uniform lower.x upper.x u, uniform lower.y upper.y v⟩, g)

end PlanarNewton
