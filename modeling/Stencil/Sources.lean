/-
# Sources

Where time, identifiers and random numbers come from. Taking one of them
leaves the sources changed. Identifiers and random numbers may follow from a seed:
then each is made of the digest of the seed with a label and its place in its
sequence.

Key definitions: `Sources`, `Sources.takeIdentifier`, `Sources.between`,
`Sources.readTime`, `Sources.later`, `Sources.ofSeed`.
-/
import Stencil.Digest.Sha256
import Stencil.Refusal

namespace Stencil

structure Sources where
  /-- The present moment, in seconds after the epoch. -/
  now : Number
  /-- The sequence of identifiers. -/
  identifier : Nat → String
  /-- The sequence of draws. -/
  draw : Nat → Int
  /-- The number of identifiers used. -/
  identifiers : Nat := 0
  /-- The number of draws used. -/
  draws : Nat := 0

namespace Sources

/-- The next identifier. -/
def takeIdentifier (s : Sources) : String × Sources :=
  (s.identifier s.identifiers, { s with identifiers := s.identifiers + 1 })

/-- A random number from `low` to `high`. -/
def between (s : Sources) (low high : Int) : Int × Sources :=
  (low + (s.draw s.draws).fmod (high - low + 1), { s with draws := s.draws + 1 })

/-- Reads the time. The clock counts on in doubles whenever it is read, here by nothing; so a time
set to an integer is read as that once, and one beyond the doubles not at all. -/
def readTime (s : Sources) : Except Refusal (Number × Sources) :=
  match s.now.toFloat? with
  | some x => .ok (s.now, { s with now := .float (x + 0) })
  | none => .error .timeBeyond

/-- The sources so many seconds later. -/
def later (s : Sources) (seconds : Number) : Except Refusal Sources :=
  match s.now.add? seconds with
  | some now => .ok { s with now }
  | none => .error .timeBeyond

/-! ### Sources that follow from a seed -/

/-- The digest of a seed with a label and a place. -/
def wordsAt (seed : List UInt8) (label : String) (place : Nat) : List Nat :=
  (Sha256.digest (seed ++ Text.utf8 (label ++ toString place))).map UInt32.toNat

/-- A random identifier of version 4, made of four words. -/
def identifierOf (a b c d : Nat) : String :=
  String.ofList (Text.hex 8 a ++ '-' :: Text.hex 4 (b / 0x10000) ++
    '-' :: '4' :: Text.hex 3 (b % 0x1000) ++ '-' :: Text.hex 4 (0x8000 + c / 0x10000 % 0x4000) ++
    '-' :: Text.hex 4 (c % 0x10000) ++ Text.hex 8 d)

/-- The number whose digits in base 2³² are the words. -/
def numberOf (words : List Nat) : Nat := words.foldl (fun n w => n * 0x100000000 + w) 0

/-- The sources that follow from a seed, at a moment. -/
def ofSeed (now : Number) (seed : List UInt8) : Sources where
  now
  identifier := fun n =>
    let ws := wordsAt seed "identifier" n
    identifierOf (ws.getD 0 0) (ws.getD 1 0) (ws.getD 2 0) (ws.getD 3 0)
  draw := fun n => numberOf (wordsAt seed "draw" n)

end Sources
end Stencil
