/-!
# SipHash

A keyed hash of byte strings into 64 bits. The state is four words; every eight bytes are mixed into
it as a word with the low byte first, the last word holding the bytes left over and the length.
-/
namespace ConventionLint.SipHash

structure State where
  v0 : UInt64
  v1 : UInt64
  v2 : UInt64
  v3 : UInt64

def rotate (x : UInt64) (bits : UInt64) : UInt64 :=
  (x <<< bits) ||| (x >>> (64 - bits))

namespace State

def ofKeys (k0 k1 : UInt64) : State where
  v0 := k0 ^^^ 0x736f6d6570736575
  v1 := k1 ^^^ 0x646f72616e646f6d
  v2 := k0 ^^^ 0x6c7967656e657261
  v3 := k1 ^^^ 0x7465646279746573

def round (s : State) : State :=
  let v0 := s.v0 + s.v1
  let v1 := rotate s.v1 13 ^^^ v0
  let v0 := rotate v0 32
  let v2 := s.v2 + s.v3
  let v3 := rotate s.v3 16 ^^^ v2
  let v0 := v0 + v3
  let v3 := rotate v3 21 ^^^ v0
  let v2 := v2 + v1
  let v1 := rotate v1 17 ^^^ v2
  let v2 := rotate v2 32
  ⟨v0, v1, v2, v3⟩

def rounds : Nat → State → State
  | 0, s => s
  | n + 1, s => rounds n s.round

/-- Mixes a word in. -/
def absorb (count : Nat) (s : State) (word : UInt64) : State :=
  let mixed := rounds count { s with v3 := s.v3 ^^^ word }
  { mixed with v0 := mixed.v0 ^^^ word }

def finish (count : Nat) (s : State) : UInt64 :=
  let last := rounds count { s with v2 := s.v2 ^^^ 0xff }
  last.v0 ^^^ last.v1 ^^^ last.v2 ^^^ last.v3

end State

/-- The word of at most eight bytes, the first of which is the lowest. -/
def wordOf (bytes : List UInt8) : UInt64 :=
  bytes.foldr (fun b word => word <<< 8 ||| b.toUInt64) 0

/-- The words of a byte string of the given length in all. -/
def words (length : Nat) (bytes : List UInt8) : List UInt64 :=
  if bytes.length < 8 then [wordOf bytes ||| (length.toUInt64 <<< 56)]
  else wordOf (bytes.take 8) :: words length (bytes.drop 8)
termination_by bytes.length
decreasing_by simp; omega

/-- The hash with one round for each word and three at the end. -/
def hash (k0 k1 : UInt64) (bytes : List UInt8) : UInt64 :=
  ((words bytes.length bytes).foldl (State.absorb 1) (.ofKeys k0 k1)).finish 3

end ConventionLint.SipHash
