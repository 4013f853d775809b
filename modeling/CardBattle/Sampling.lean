/-!
# Sampling

A hand is peeked at by a sample of its cards that depends on nothing but a seed.  The seed
is spread by a linear congruence over the four words of a generator of the xoshiro family,
from whose numbers the sample is drawn.  How it is drawn depends on the numbers of places:

* few of many places by Floyd's method (`floyd`): for each of the last `k` of `n` places in
  turn a place up to it is drawn, and if that is in the sample already, the place itself is
  taken in its stead;
* a good part of the places by exchanging the first of them with later ones (`inPlace`);
* many places of very many more by drawing until there are enough (`drawApart`).
-/

namespace CardBattle.Sampling

/-- The bits of a word moved to the left, those that fall out coming in on the right. -/
def rotateLeft (x : UInt64) (k : UInt64) : UInt64 :=
  (x <<< k) ||| (x >>> (64 - k))

/-- The state of the generator. -/
structure Generator where
  s0 : UInt64
  s1 : UInt64
  s2 : UInt64
  s3 : UInt64
deriving DecidableEq

/-- The next state of the congruence that spreads a seed. -/
def spread (s : UInt64) : UInt64 :=
  s * 6364136223846793005 + 11634580027462260723

/-- The 32 bits that a state of the congruence gives. -/
def spreadOutput (s : UInt64) : UInt32 :=
  let x := (((s >>> 18) ^^^ s) >>> 27).toUInt32
  let k := (s >>> 59).toUInt32
  (x >>> k) ||| (x <<< ((32 - k) % 32))

/-- The next word of 64 bits that the congruence gives behind `s`, and the state after
it. -/
def spreadWord (s : UInt64) : UInt64 × UInt64 :=
  let low := spread s
  let high := spread low
  ((spreadOutput high).toUInt64 <<< 32 ||| (spreadOutput low).toUInt64, high)

/-- The generator that a seed starts. -/
def Generator.ofSeed (seed : UInt64) : Generator :=
  let (s0, seed) := spreadWord seed
  let (s1, seed) := spreadWord seed
  let (s2, seed) := spreadWord seed
  let (s3, _) := spreadWord seed
  ⟨s0, s1, s2, s3⟩

/-- The next number of 32 bits, and the generator after it. -/
def Generator.next (g : Generator) : UInt32 × Generator :=
  let number := rotateLeft (g.s0 + g.s3) 23 + g.s0
  let shifted := g.s1 <<< 17
  let s2 := g.s2 ^^^ g.s0
  let s3 := g.s3 ^^^ g.s1
  ((number >>> 32).toUInt32,
    ⟨g.s0 ^^^ s3, g.s1 ^^^ s2, s2 ^^^ shifted, rotateLeft s3 45⟩)

/-- The number of zero bits in front of the first bit of a positive number below
`2 ^ 32`. -/
def leadingZeros (n : Nat) : Nat :=
  31 - Nat.log2 n

/-- How often a number is drawn again at most.  The generator comes back to its first state
behind fewer numbers, and has given every number of 32 bits by then, so no draw gets there. -/
def maxTries : Nat := Nat.pow 2 256

/-- A number below `range`.  The product of a number of the generator and `range` is taken
apart: the high half is the number drawn, and a low half beyond `zone` calls for another
try. -/
def Generator.draw (range zone : Nat) : Nat → Generator → Nat × Generator
  | 0, g => (0, g)
  | tries + 1, g =>
      let (number, g) := g.next
      let product := number.toNat * range
      if product % UInt32.size ≤ zone then (product / UInt32.size, g) else draw range zone tries g

/-- A number from zero to `top`.  The size of the range, moved to the left as far as 32 bits
go, is where a low half is too high, so a try fails less than every other time. -/
def Generator.upTo (top : Nat) (g : Generator) : Nat × Generator :=
  let range := top + 1
  g.draw range (range * Nat.pow 2 (leadingZeros range) - 1) maxTries

/-- A place below `n`.  A low half is too high beyond the last whole multiple of `n`. -/
def Generator.below (n : Nat) (g : Generator) : Nat × Generator :=
  g.draw n (UInt32.size - 1 - UInt32.size % n) maxTries

/-- The list with the elements at two places exchanged. -/
def exchange (i j : Nat) (l : List Nat) : List Nat :=
  (l.set i (l.getD j 0)).set j (l.getD i 0)

/-! ### Floyd's method -/

/-- The sample with the place `last` put in front of the place `drawn`, or with `drawn` at
the end if it is new. -/
def insertDrawn (drawn last : Nat) (sample : List Nat) : List Nat :=
  if drawn ∈ sample then
    sample.takeWhile (· ≠ drawn) ++ last :: sample.dropWhile (· ≠ drawn)
  else sample ++ [drawn]

/-- The sample with the place `drawn` at the end, or with `last` if `drawn` is not new. -/
def appendDrawn (drawn last : Nat) (sample : List Nat) : List Nat :=
  sample ++ [if drawn ∈ sample then last else drawn]

/-- The sample drawn from the places below `n` for those of the last `k` in turn, each of
which is added by `add`. -/
def floydFrom (add : Nat → Nat → List Nat → List Nat) (n : Nat) :
    Nat → Generator → List Nat → List Nat × Generator
  | 0, g, sample => (sample, g)
  | k + 1, g, sample =>
      let last := n - (k + 1)
      let (drawn, g) := g.upTo last
      floydFrom add n k g (add drawn last sample)

/-- The elements at the places up to `i` shuffled, from the last one down. -/
def shuffle : Nat → Generator → List Nat → List Nat
  | 0, _, l => l
  | i + 1, g, l =>
      let (j, g) := g.upTo (i + 1)
      shuffle i g (exchange (i + 1) j l)

/-- A sample by Floyd's method.  A short one is shuffled as it grows, a longer one
afterwards. -/
def floyd (n k : Nat) (g : Generator) : List Nat :=
  if k < 50 then (floydFrom insertDrawn n k g []).1
  else
    let (sample, g) := floydFrom appendDrawn n k g []
    shuffle (k - 1) g sample

/-! ### Other methods -/

/-- The places below `n` with the first ones exchanged in turn with places that are not
before them, where `left` exchanges are left of `k`. -/
def exchangeFirst (n k : Nat) : Nat → Generator → List Nat → List Nat
  | 0, _, places => places
  | left + 1, g, places =>
      let i := k - (left + 1)
      let (ahead, g) := g.upTo (n - 1 - i)
      exchangeFirst n k left g (exchange i (i + ahead) places)

/-- A sample taken from the front of all places. -/
def inPlace (n k : Nat) (g : Generator) : List Nat :=
  (exchangeFirst n k k g (List.range n)).take k

/-- A place below `n` that is not in the sample. -/
def drawNew (n : Nat) (sample : List Nat) : Nat → Generator → Nat × Generator
  | 0, g => (0, g)
  | tries + 1, g =>
      let (place, g) := g.below n
      if place ∈ sample then drawNew n sample tries g else (place, g)

/-- The sample with so many places added that are not in it. -/
def drawApart (n : Nat) : Nat → Generator → List Nat → List Nat
  | 0, _, sample => sample
  | k + 1, g, sample =>
      let (place, g) := drawNew n sample maxTries g
      drawApart n k g (sample ++ [place])

/-- Whether `k` of `n` places are so many that exchanging them takes less time. -/
def prefersInPlace (n k : Nat) : Bool :=
  if k < 163 then 11 < k && 5 * n < (8 * k + 50) * k
  else if n < 500000 then n < 270 * k
  else 3 * n < 110 * k

/-- A sample of `k` of `n` places, or of all of them if there are less. -/
def sample (seed : UInt64) (n k : Nat) : List Nat :=
  let k := min k n
  let g := Generator.ofSeed seed
  if prefersInPlace n k then inPlace n k g
  else if k < 163 then floyd n k g
  else drawApart n k g []

end CardBattle.Sampling
