import FormulaLang.Config
import FormulaLang.Decimal.Layout
import FormulaLang.Member

/-!
A bounded cache of resolved members: one bucket for each owner type, the bucket used last in
front.  When a bucket for a new type does not fit, the one used longest ago is dropped.
-/

namespace FormulaLang

/-- What a cache has done since it was cleared. -/
structure CacheStats where
  /-- Requests answered from the cache. -/
  hits : Nat
  /-- Requests that it could not answer. -/
  misses : Nat
  /-- Buckets dropped for want of room. -/
  evictions : Nat
deriving DecidableEq, Repr

namespace CacheStats

def zero : CacheStats := ⟨0, 0, 0⟩

/-- The share of requests answered, in percent. -/
def hitRatio (s : CacheStats) : Float :=
  if s.hits + s.misses = 0 then 0
  else Float.ofNat s.hits / Float.ofNat (s.hits + s.misses) * 100

def summary (s : CacheStats) : String :=
  "CacheStats \x7b hits: " ++ toString s.hits ++ ", misses: " ++ toString s.misses
    ++ ", evictions: " ++ toString s.evictions ++ " \x7d"

end CacheStats

/-- A cache of at most `capacity` buckets; one of capacity zero keeps nothing and counts
nothing. -/
structure MemberCache (H : Type) where
  capacity : Nat
  /-- The buckets, the one used last in front. -/
  buckets : Keyed TypeInfo (Keyed String (Member H))
  stats : CacheStats

namespace MemberCache

variable {H : Type}

/-- The empty cache of a configuration. -/
def ofConfig (c : CacheConfig) : MemberCache H :=
  ⟨if c.isActive then c.capacity else 0, [], .zero⟩

def bucket? (c : MemberCache H) (owner : TypeInfo) : Option (Keyed String (Member H)) :=
  c.buckets.lookup owner

/-- The bucket of a type, put in front of the others. -/
def promote (c : MemberCache H) (owner : TypeInfo) (bucket : Keyed String (Member H)) :
    Keyed TypeInfo (Keyed String (Member H)) :=
  (owner, bucket) :: Keyed.erase owner c.buckets

/-- Asks for a member.  The bucket asked counts as used even if the member is not in it. -/
def get (c : MemberCache H) (owner : TypeInfo) (name : String) :
    Option (Member H) × MemberCache H :=
  if c.capacity = 0 then
    (none, c)
  else
    match c.bucket? owner with
    | none => (none, { c with stats.misses := c.stats.misses + 1 })
    | some bucket =>
        let buckets := c.promote owner bucket
        match bucket.lookup name with
        | some member =>
            (some member, { c with buckets, stats.hits := c.stats.hits + 1 })
        | none => (none, { c with buckets, stats.misses := c.stats.misses + 1 })

/-- Stores a member.  A bucket for a new type takes the place of the one used longest ago when the
cache is full. -/
def insert (c : MemberCache H) (owner : TypeInfo) (name : String) (member : Member H) :
    MemberCache H :=
  if c.capacity = 0 then
    c
  else
    match c.bucket? owner with
    | some bucket => { c with buckets := c.promote owner (Keyed.insert name member bucket) }
    | none =>
        let fresh := (owner, [(name, member)])
        if c.buckets.length < c.capacity then
          { c with buckets := fresh :: c.buckets }
        else
          { c with
            buckets := fresh :: c.buckets.dropLast
            stats.evictions := c.stats.evictions + 1 }

/-- Finds a member through the cache, and stores it if it had to be resolved. -/
def lookup [HostObject H] (c : MemberCache H) (types : TypeRegistry H) (owner : TypeInfo)
    (name : String) : MemberLookup H × MemberCache H :=
  match c.get owner name with
  | (some member, c) => (.found member, c)
  | (none, c) =>
      match Member.resolve types owner name with
      | .found member => (.found member, c.insert owner name member)
      | other => (other, c)

/-- Drops the bucket of a type, and tells whether there was one. -/
def evict (c : MemberCache H) (owner : TypeInfo) : Bool × MemberCache H :=
  ((c.bucket? owner).isSome, { c with buckets := Keyed.erase owner c.buckets })

/-- Drops every bucket and starts counting anew. -/
def clear (c : MemberCache H) : MemberCache H :=
  { c with buckets := [], stats := .zero }

def size (c : MemberCache H) : Nat :=
  c.buckets.length

def isEmpty (c : MemberCache H) : Bool :=
  c.buckets.isEmpty

/-- Whether a type has a bucket; asking is not using. -/
def contains (c : MemberCache H) (owner : TypeInfo) : Bool :=
  (c.bucket? owner).isSome

def summary (c : MemberCache H) : String :=
  "MemberCache \x7b buckets: " ++ toString c.size ++ ", capacity: " ++ toString c.capacity
    ++ ", stats: " ++ c.stats.summary ++ " \x7d"

end MemberCache

end FormulaLang
