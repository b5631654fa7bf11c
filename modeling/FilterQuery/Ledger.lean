import FilterQuery.CharClass
import FilterQuery.Text.Encoding

/-!
# Automata over bytes

An automaton reads the encoding of a name byte by byte, forward or backward.  A
ledger tells how much room it takes: 32 bytes for each state, four more for each
of the states that one leads to without reading, where there are several, and
eight for each arrow of a state that reads one of several bytes.

A class is the largest part of most automata.  Forward, its encodings form a
trie whose equal nodes are one; backward, they form chains that share what they
have in common at the end.  Both keep what they have built in a table of limited
size, where a later entry takes the place of an earlier one.
-/

namespace FilterQuery

/-- What an automaton may take: ten mebibytes. -/
def footprintLimit : Nat := 10 * 1024 * 1024

/-- An arrow for the bytes of a range. -/
structure Arrow where
  first : Nat
  last : Nat
  target : Nat
  deriving DecidableEq, Inhabited, Repr

/-- An automaton under construction: how much it takes, and what it may use
again. -/
structure Ledger where
  states : Nat := 0
  /-- What the states take beyond the 32 bytes of each. -/
  extra : Nat := 0
  /-- Nodes of tries, with their states. -/
  nodes : Array (Option (List Arrow × Nat)) := Array.replicate 10000 none
  /-- States of chains, by the arrow that leaves them. -/
  links : Array (Option (Arrow × Nat)) := Array.replicate 1000 none
  deriving Inhabited

/-- A step of the construction, which fails at the limit. -/
abbrev Construction (α : Type) := StateT Ledger Option α

namespace Construction

/-- Takes some bytes more. -/
def charge (bytes : Nat) : Construction Unit := fun ledger =>
  let ledger := { ledger with extra := ledger.extra + bytes }
  if 32 * ledger.states + ledger.extra ≤ footprintLimit then some ((), ledger) else none

/-- One state more, with what it takes beyond the 32 bytes. -/
def addState (bytes : Nat) : Construction Nat := fun ledger =>
  let state := ledger.states
  let ledger := { ledger with states := state + 1, extra := ledger.extra + bytes }
  if 32 * ledger.states + ledger.extra ≤ footprintLimit then some (state, ledger) else none

/-- Leads on from the end of a part.  If that end is a state that leads to
several others, it gets one more of them. -/
def leave (branches : Bool) : Construction Unit :=
  if branches then charge 4 else pure ()

/-- The place of an entry in a table. -/
def slot (size : Nat) (key : List Nat) : Nat :=
  let mix (h : UInt64) (n : Nat) : UInt64 := (h ^^^ UInt64.ofNat n) * 1099511628211
  (key.foldl mix 14695981039346656037).toNat % size

/-- The state of a node with the given arrows. -/
def addNode (arrows : List Arrow) : Construction Nat := do
  let ledger ← get
  let i := slot 10000 (arrows.flatMap fun a => [a.first, a.last, a.target])
  match ledger.nodes.getD i none with
  | some (known, state) => if known = arrows then return state
  | none => pure ()
  let state ← addState (8 * arrows.length)
  modify fun ledger => { ledger with nodes := ledger.nodes.set! i (some (arrows, state)) }
  return state

/-- A class of ASCII characters: a state with all arrows. -/
def addAscii (c : CharClass) : Construction Unit := do
  let _ ← addState 0
  let _ ← addState (8 * c.ranges.length)

/-- A node on the way to the encoding added last: the arrows to nodes that are
complete, and the range of the arrow to the next node. -/
structure OpenNode where
  arrows : List Arrow := []
  range : Option (Nat × Nat) := none
  deriving Inhabited

/-- All arrows of a node whose next node has the state `target`. -/
def OpenNode.close (node : OpenNode) (target : Nat) : List Arrow :=
  match node.range with
  | some (first, last) => node.arrows ++ [⟨first, last, target⟩]
  | none => node.arrows

/-- The state of the first of some nodes, each the next one of the node before
it. -/
def complete (target : Nat) : List OpenNode → Construction Nat
  | [] => pure target
  | node :: nodes => do addNode (node.close (← complete target nodes))

/-- Adds an encoding to the trie, behind those that come before it in order. -/
def extend (target : Nat) : List OpenNode → List (Nat × Nat) → Construction (List OpenNode)
  | node :: nodes, range :: rest => do
    if node.range = some range then return node :: (← extend target nodes rest)
    else
      let arrows := node.close (← complete target nodes)
      return ⟨arrows, some range⟩ :: rest.map fun range => ⟨[], some range⟩
  | nodes, _ => pure nodes

/-- A class for reading forward. -/
def addTrie (c : CharClass) : Construction Unit := do
  let target ← addState 0
  let nodes ← (c.ranges.flatMap Text.encodings).foldlM (extend target) [{}]
  let _ ← complete target nodes

/-- The first state of a chain of arrows, one for each place of an encoding from
its end on. -/
def addChain (target : Nat) : List (Nat × Nat) → Construction Nat
  | [] => pure target
  | (first, last) :: rest => do
    let ledger ← get
    let i := slot 1000 [target, first, last]
    match ledger.links.getD i none with
    | some (known, state) => if known = ⟨first, last, target⟩ then return (← addChain state rest)
    | none => pure ()
    let state ← addState 0
    modify fun ledger =>
      { ledger with links := ledger.links.set! i (some (⟨first, last, target⟩, state)) }
    addChain state rest

/-- A class for reading backward. -/
def addChains (c : CharClass) : Construction Unit := do
  let _ ← addState 0
  let target ← addState 0
  for encoding in c.ranges.flatMap Text.encodings do
    let _ ← addChain target encoding
    charge 4

/-- The states of a class, for reading forward. -/
def addClass (c : CharClass) : Construction Unit :=
  if c.isAscii then addAscii c else addTrie c

/-- The states of a class, for reading backward. -/
def addClassBackward (c : CharClass) : Construction Unit :=
  if c.isAscii then addAscii c else addChains c

end Construction

end FilterQuery
