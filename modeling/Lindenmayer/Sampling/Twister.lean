import Lindenmayer.Sampling.Source

/-!
# The Mersenne twister

A source of draws with a period of `2 ^ 19937 - 1`: a table of 624 words, from which words of 32
bits are taken in turn and which is stirred each time it is used up. A seed of any size fills the
table word by word.
-/

namespace Lindenmayer

/-- The table and the number of words taken from it. -/
structure Twister where
  table : Array UInt32
  taken : Nat

namespace Twister

/-- The number of words in the table. -/
def size : Nat := 624

/-- The distance between words that are combined in stirring. -/
def gap : Nat := 397

/-- The word of a table at an index. -/
def word (table : Array UInt32) (index : Nat) : UInt32 :=
  table[index]?.getD 0

/-- A word folded onto itself. -/
def fold (word : UInt32) : UInt32 :=
  word ^^^ (word >>> 30)

/-- The table that one word fills. -/
def fill (seed : UInt32) : Array UInt32 :=
  (List.range (size - 1)).foldl
    (fun table index => table.push (1812433253 * fold (word table index) + (index + 1).toUInt32))
    #[seed]

/-- A table that is being mixed, at the index to mix next. -/
structure Mixing where
  table : Array UInt32
  index : Nat

/-- Mix a word with its left neighbour, and go on; after the last word the first one takes its value
and mixing goes on with the second. -/
def Mixing.step (mixing : Mixing) (factor : UInt32) (change : UInt32 → UInt32) : Mixing :=
  let before := fold (word mixing.table (mixing.index - 1)) * factor
  let value := change (word mixing.table mixing.index ^^^ before)
  let table := mixing.table.setIfInBounds mixing.index value
  if mixing.index + 1 < size then ⟨table, mixing.index + 1⟩
  else ⟨table.setIfInBounds 0 value, 1⟩

/-- The words of a number, the least one first. -/
def wordsOf (fuel number : Nat) : List UInt32 :=
  match fuel with
  | 0 => []
  | fuel + 1 =>
      if number = 0 then [] else number.toUInt32 :: wordsOf fuel (number / 0x100000000)

/-- The words of a seed: zero has one word, and the sign does not count. -/
def key (seed : Int) : Array UInt32 :=
  if seed = 0 then #[0] else (wordsOf (seed.natAbs.log2 / 32 + 1) seed.natAbs).toArray

/-- The table that some words fill. -/
def fillFrom (key : Array UInt32) : Array UInt32 :=
  -- The first round mixes the key in, and the second one the indices.
  let first := (List.range (max size key.size)).foldl
    (fun (mixing : Mixing) count =>
      let index := count % key.size
      mixing.step 1664525 fun value => value + word key index + index.toUInt32)
    ⟨fill 19650218, 1⟩
  let second := (List.range (size - 1)).foldl
    (fun (mixing : Mixing) _ =>
      mixing.step 1566083941 fun value => value - mixing.index.toUInt32)
    first
  second.table.setIfInBounds 0 0x80000000

/-- The twister of a seed, whose table is to be stirred before the first word is taken. -/
def ofSeed (seed : Int) : Twister :=
  ⟨fillFrom (key seed), size⟩

/-- Stir the word at an index. -/
def stirAt (table : Array UInt32) (index : Nat) : Array UInt32 :=
  let high := word table index &&& 0x80000000
  let low := word table ((index + 1) % size) &&& 0x7FFFFFFF
  let both := high ||| low
  let twist : UInt32 := if both &&& 1 = 1 then 0x9908B0DF else 0
  table.setIfInBounds index (word table ((index + gap) % size) ^^^ (both >>> 1) ^^^ twist)

/-- Stir all words of a table in order. -/
def stir (table : Array UInt32) : Array UInt32 :=
  (List.range size).foldl stirAt table

/-- A word of the table as it is given out. -/
def temper (word : UInt32) : UInt32 :=
  let first := word ^^^ (word >>> 11)
  let second := first ^^^ ((first <<< 7) &&& 0x9D2C5680)
  let third := second ^^^ ((second <<< 15) &&& 0xEFC60000)
  third ^^^ (third >>> 18)

/-- The next word, from a stirred table if all words are taken. -/
def next (twister : Twister) : UInt32 × Twister :=
  if twister.taken < size then
    (temper (word twister.table twister.taken), ⟨twister.table, twister.taken + 1⟩)
  else
    let table := stir twister.table
    (temper (word table 0), ⟨table, 1⟩)

/-- A number of the unit interval with 53 bits, from two words. -/
def unit (twister : Twister) : Float × Twister :=
  let (first, afterFirst) := twister.next
  let (second, afterSecond) := afterFirst.next
  let bits := (first >>> 5).toNat * 0x4000000 + (second >>> 6).toNat
  (Float.ofNat bits / 9007199254740992, afterSecond)

/-- The first words, cut to the bits of the bound, until one is below the bound. After as many
misses as `attempts` the last word counts modulo the bound. -/
def belowWithin (attempts bound : Nat) (hbound : 0 < bound) (twister : Twister) :
    Fin bound × Twister :=
  let (drawn, after) := twister.next
  let value := drawn.toNat >>> (32 - (bound.log2 + 1))
  if hvalue : value < bound then (⟨value, hvalue⟩, after)
  else
    match attempts with
    | 0 => (⟨value % bound, Nat.mod_lt _ hbound⟩, after)
    | attempts + 1 => belowWithin attempts bound hbound after

/-- The twister as a source. At most every second word misses, so a thousand misses in a row do not
come up. -/
def source : Source Twister where
  unit := unit
  below := belowWithin 1000

end Twister

end Lindenmayer
