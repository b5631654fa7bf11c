import FilterQuery.Text.Edition
import FilterQuery.Text.Lowercase

/-!
# Case folding

Two characters are the same but for their case if they fold to the same
character.  For almost all that is their lower-case character; some small
letters have a variant that folds to another one.  Folding is for patterns, and
goes by their edition of the tables.
-/

namespace FilterQuery.Text

/-- Characters that do not fold to their lower-case character. -/
def foldingRuns : List CaseRun :=
  [⟨0xB5, 0xB5, 1, 0x307⟩, ⟨0x17F, 0x17F, 1, -0x10C⟩, ⟨0x345, 0x345, 1, 0x74⟩,
   ⟨0x3C2, 0x3C2, 1, 0x1⟩, ⟨0x3D0, 0x3D0, 1, -0x1E⟩, ⟨0x3D1, 0x3D1, 1, -0x19⟩,
   ⟨0x3D5, 0x3D5, 1, -0xF⟩, ⟨0x3D6, 0x3D6, 1, -0x16⟩, ⟨0x3F0, 0x3F0, 1, -0x36⟩,
   ⟨0x3F1, 0x3F1, 1, -0x30⟩, ⟨0x3F5, 0x3F5, 1, -0x40⟩, ⟨0x13A0, 0x13F5, 1, 0x0⟩,
   ⟨0x13F8, 0x13FD, 1, -0x8⟩, ⟨0x1C80, 0x1C80, 1, -0x184E⟩, ⟨0x1C81, 0x1C81, 1, -0x184D⟩,
   ⟨0x1C82, 0x1C82, 1, -0x1844⟩, ⟨0x1C83, 0x1C84, 1, -0x1842⟩, ⟨0x1C85, 0x1C85, 1, -0x1843⟩,
   ⟨0x1C86, 0x1C86, 1, -0x183C⟩, ⟨0x1C87, 0x1C87, 1, -0x1824⟩, ⟨0x1C88, 0x1C88, 1, 0x89C3⟩,
   ⟨0x1E9B, 0x1E9B, 1, -0x3A⟩, ⟨0x1FBE, 0x1FBE, 1, -0x1C05⟩, ⟨0x1FD3, 0x1FD3, 1, -0x1C43⟩,
   ⟨0x1FE3, 0x1FE3, 1, -0x1C33⟩, ⟨0xAB70, 0xABBF, 1, -0x97D0⟩, ⟨0xFB05, 0xFB05, 1, 0x1⟩]

/-- The character that a character folds to. -/
def foldChar (c : Char) : Char :=
  if isRecent c then c
  else if foldingRuns.any (·.covers c.toNat) then applyRuns foldingRuns c
  else lowercaseChar c

/-- The code points that a run covers. -/
def CaseRun.members (r : CaseRun) : List Nat :=
  (List.range ((r.last - r.first) / r.step + 1)).map (r.first + r.step * ·)

/-- The characters that fold to another one, each with that. -/
def foldingPairs : List (Nat × Nat) :=
  let capitals := (List.range 26).map ('A'.toNat + ·)
  let moved := (foldingRuns ++ lowercaseRuns).flatMap (·.members)
  ((capitals ++ moved).map fun n => (n, (foldChar (Char.ofNat n)).toNat)).filter
    fun p => p.1 ≠ p.2

end FilterQuery.Text
