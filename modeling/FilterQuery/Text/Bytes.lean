/-!
# Byte offsets

Places in a text are counted in the bytes of its UTF-8 form.  A text is cut at a
place only between two characters.
-/

namespace FilterQuery.Text

/-- The number of bytes that characters take up. -/
def byteLength : List Char → Nat
  | [] => 0
  | c :: cs => c.utf8Size + byteLength cs

/-- Bytes add up. -/
@[simp] theorem byteLength_append (a b : List Char) :
    byteLength (a ++ b) = byteLength a + byteLength b := by
  induction a with
  | nil => simp [byteLength]
  | cons c a ih => simp [byteLength, ih, Nat.add_assoc]

/-- Each character takes a byte at least. -/
theorem length_le_byteLength (cs : List Char) : cs.length ≤ byteLength cs := by
  induction cs with
  | nil => exact Nat.le_refl _
  | cons c cs ih =>
      have hc : 0 < c.utf8Size := c.utf8Size_pos
      simp only [byteLength, List.length_cons]
      omega

/-- Cuts a text after a number of bytes: nothing if that is past its end or
inside a character. -/
def splitAtByte? : Nat → List Char → Option (List Char × List Char)
  | 0, cs => some ([], cs)
  | _ + 1, [] => none
  | n + 1, c :: cs =>
    if c.utf8Size ≤ n + 1 then
      (splitAtByte? (n + 1 - c.utf8Size) cs).map fun (a, b) => (c :: a, b)
    else none

/-- Text is split where its first part ends. -/
theorem splitAtByte?_byteLength (a b : List Char) :
    splitAtByte? (byteLength a) (a ++ b) = some (a, b) := by
  induction a with
  | nil => cases b <;> rfl
  | cons c a ih =>
      have hc : 0 < c.utf8Size := c.utf8Size_pos
      obtain ⟨n, hn⟩ : ∃ n, byteLength (c :: a) = n + 1 :=
        ⟨byteLength (c :: a) - 1, by simp only [byteLength]; omega⟩
      have hrest : n + 1 - c.utf8Size = byteLength a := by
        rw [← hn]
        simp [byteLength]
      rw [hn, List.cons_append, splitAtByte?, if_pos (by rw [← hn]; simp [byteLength]), hrest, ih]
      rfl

/-- The bytes from `start` up to `stop` as text, if both are places between
characters. -/
def slice? (cs : List Char) (start stop : Nat) : Option (List Char) := do
  let (_, rest) ← splitAtByte? start cs
  if stop < start then none
  else
    let (piece, _) ← splitAtByte? (stop - start) rest
    some piece

end FilterQuery.Text
