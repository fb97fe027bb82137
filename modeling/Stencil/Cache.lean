/-
# Cache

Expanded values of variables, known by the name of the variable and the
fingerprint of the context. The entry used least recently is the first to go
when there are more entries than the cache may hold; an entry older than the
time to live counts as absent. A second index gives the keys of each name. The
time is taken from the sources, and read only where it matters.

Key definitions: `Cache`, `Cache.create`, `Cache.find`, `Cache.put`,
`Cache.invalidate`, `Cache.clear`, `Cache.findNow`, `Cache.putNow`.
-/
import Stencil.Sources
import Stencil.Variable

namespace Stencil

namespace Cache

/-- A variable's name and a context's fingerprint. -/
structure Key where
  name : String
  fingerprint : String
deriving DecidableEq, Repr

structure Entry where
  name : String
  fingerprint : String
  value : String
  scope : Option Scope
  owner : Option String
  /-- The number of levels of references below the variable. -/
  height : Int
  /-- The moment at which the entry was made, if entries are dated. -/
  created : Number := .int 0
  /-- How often the entry has been found. -/
  hits : Nat := 0

end Cache

structure Cache where
  /-- The greatest number of entries. -/
  capacity : Number
  /-- How long an entry may be used. -/
  lifetime : Option Number
  /-- Whether entries carry the time at which they were made. -/
  isDated : Bool := true
  /-- The entries, the one used least recently first. -/
  entries : List (Cache.Key × Cache.Entry) := []
  /-- The keys of each name that has entries. -/
  index : List (String × List Cache.Key) := []
  hits : Nat := 0
  misses : Nat := 0
  evictions : Nat := 0
  invalidations : Nat := 0

namespace Cache

/-- A cache without entries, or what is wrong with its bounds. -/
def create (capacity : Number) (lifetime : Option Number) : Except String Cache :=
  if capacity.lt (.int 1) then
    .error ("max_size must be at least 1, got " ++ (Value.ofNumber capacity).plain)
  else
    match lifetime with
    | some t =>
      if t.le (.int 0) then .error ("ttl_seconds must be positive, got " ++ (Value.ofNumber t).plain)
      else .ok { capacity, lifetime := some t }
    | none => .ok { capacity, lifetime := none }

/-- A cache that holds up to `capacity` undated entries for ever. -/
def ofCapacity (capacity : Nat) : Cache :=
  { capacity := .int capacity, lifetime := none, isDated := false }

def size (c : Cache) : Nat := c.entries.length

/-- The entry of a key, whatever its age. -/
def entry? (c : Cache) (k : Key) : Option Entry :=
  (c.entries.find? fun e => e.1 == k).map Prod.snd

/-- Whether an entry is too old at the moment `now`. -/
def isExpired (c : Cache) (now : Number) (e : Entry) : Bool :=
  match c.lifetime with
  | none => false
  | some t => t.le (now.sub e.created)

/-! ### The two indexes -/

/-- Takes a key from the keys of its name; a name without keys goes. -/
def dropKey (k : Key) : List (String × List Key) → List (String × List Key)
  | [] => []
  | (n, ks) :: r =>
    if n == k.name then
      match ks.filter (· != k) with
      | [] => r
      | rest => (n, rest) :: r
    else (n, ks) :: dropKey k r

/-- Puts a key to the keys of its name. -/
def addKey (k : Key) : List (String × List Key) → List (String × List Key)
  | [] => [(k.name, [k])]
  | (n, ks) :: r =>
    if n == k.name then (n, if ks.contains k then ks else ks ++ [k]) :: r
    else (n, ks) :: addKey k r

/-- The keys of a name. -/
def keysOf (c : Cache) (name : String) : List Key :=
  ((c.index.find? fun e => e.1 == name).map Prod.snd).getD []

/-- The cache without the entry of a key. -/
def remove (c : Cache) (k : Key) : Cache :=
  { c with entries := c.entries.filter fun e => e.1 != k, index := dropKey k c.index }

/-! ### Operations -/

/-- Looks an entry up at the moment `now`. One that is found counts as used; one that is too old is
removed. -/
def find (c : Cache) (k : Key) (now : Number) : Option Entry × Cache :=
  match c.entry? k with
  | none => (none, { c with misses := c.misses + 1 })
  | some e =>
    if c.isExpired now e then
      let c := c.remove k
      (none, { c with misses := c.misses + 1 })
    else
      let e := { e with hits := e.hits + 1 }
      (some e, { c with
        entries := (c.entries.filter fun e => e.1 != k) ++ [(k, e)]
        hits := c.hits + 1 })

/-- Takes the first of the given entries away while there are more than the cache may hold. -/
def evict (c : Cache) : List (Key × Entry) → Cache
  | [] => { c with entries := [] }
  | (k, e) :: r =>
    if c.capacity.lt (.int (r.length + 1 : Nat)) then
      evict { c with index := dropKey k c.index, evictions := c.evictions + 1 } r
    else { c with entries := (k, e) :: r }

/-- Puts an entry in the place of the one with its key, as the one used last. -/
def put (c : Cache) (e : Entry) : Cache :=
  let k : Key := ⟨e.name, e.fingerprint⟩
  let c := if (c.entry? k).isSome then c.remove k else c
  evict { c with index := addKey k c.index } (c.entries ++ [(k, e)])

/-- Removes every entry of a name, in whatever context. The number of entries removed. -/
def invalidate (c : Cache) (name : String) : Nat × Cache :=
  let keys := c.keysOf name
  let c := keys.foldl remove c
  (keys.length, { c with invalidations := c.invalidations + 1 })

/-- Removes all entries; the counts stay. -/
def clear (c : Cache) : Cache := { c with entries := [], index := [] }

/-! ### Entries and the time -/

/-- Whether it depends on the time if an entry is found: there is one, and it may be too old. -/
def needsTime (c : Cache) (k : Key) : Bool := c.lifetime.isSome && (c.entry? k).isSome

/-- Looks an entry up at the present moment. -/
def findNow (c : Cache) (k : Key) (s : Sources) :
    Except Refusal (Option Entry × Cache × Sources) :=
  if c.needsTime k then do
    let (now, s) ← s.readTime
    let (e?, c) := c.find k now
    return (e?, c, s)
  else
    let (e?, c) := c.find k s.now
    .ok (e?, c, s)

/-- Puts an entry as one made at the present moment. If the time cannot be read, the entry that it
was to replace is gone all the same. -/
def putNow (c : Cache) (e : Entry) (s : Sources) : Except Refusal Sources × Cache :=
  if c.isDated then
    match s.readTime with
    | .ok (now, s) => (.ok s, c.put { e with created := now })
    | .error r => (.error r, c.remove ⟨e.name, e.fingerprint⟩)
  else (.ok s, c.put e)

end Cache
end Stencil
