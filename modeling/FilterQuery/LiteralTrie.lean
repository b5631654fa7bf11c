import FilterQuery.Ledger

/-!
# Tries of literals

Alternatives that are literals share the states for what they begin with.  A
literal that ends inside another one is still preferred to what comes behind it
in the list, so that a node keeps apart the arrows from before and from behind
it.
-/

namespace FilterQuery

/-- A node: the arrows that literals closed by ending here, list by list, and
those added since. -/
inductive LiteralTrie where
  | node (closed : List (List (Nat × LiteralTrie))) (current : List (Nat × LiteralTrie))
  deriving Inhabited

namespace LiteralTrie

/-- The trie of one literal. -/
def ofBytes : List Nat → LiteralTrie
  | [] => node [[]] []
  | b :: rest => node [] [(b, ofBytes rest)]

mutual

/-- Adds a literal. -/
def insert : LiteralTrie → List Nat → LiteralTrie
  | node closed current, [] =>
    if current.isEmpty && closed.all List.isEmpty && !closed.isEmpty then node closed current
    else node (closed ++ [current]) []
  | node closed current, b :: rest => node closed (insertArrow current b rest)

/-- Adds a literal to the node behind the arrow for its first byte. -/
def insertArrow : List (Nat × LiteralTrie) → Nat → List Nat → List (Nat × LiteralTrie)
  | [], b, rest => [(b, ofBytes rest)]
  | (c, t) :: arrows, b, rest =>
    if c = b then (c, t.insert rest) :: arrows else (c, t) :: insertArrow arrows b rest

end

/-- The state for the arrows of one list, if there are any. -/
def addArrows (count : Nat) : Construction Unit := do
  if 0 < count then
    let _ ← Construction.addState (if count = 1 then 0 else 8 * count)

mutual

/-- The states of a trie: none for a node that no arrow leaves. -/
def build : LiteralTrie → Construction Unit
  | node closed current => do
    let lists := closed ++ [current]
    if lists.any (!·.isEmpty) then
      buildLists closed
      buildArrows current
      lists.forM fun arrows => addArrows arrows.length
      let _ ← Construction.addState (4 * ((lists.filter (!·.isEmpty)).length + closed.length))

def buildArrows : List (Nat × LiteralTrie) → Construction Unit
  | [] => pure ()
  | (_, t) :: rest => do
    t.build
    buildArrows rest

def buildLists : List (List (Nat × LiteralTrie)) → Construction Unit
  | [] => pure ()
  | arrows :: rest => do
    buildArrows arrows
    buildLists rest

end

end LiteralTrie

end FilterQuery
