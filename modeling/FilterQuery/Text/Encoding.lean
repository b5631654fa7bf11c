/-!
# Encodings of ranges

The characters of a range are encoded by sequences of bytes.  A range falls into
parts such that the encodings of a part are all sequences whose bytes lie in
given ranges, one for each place.
-/

namespace FilterQuery.Text

/-- The bytes that encode a code point. -/
def encode (n : Nat) : List Nat :=
  if n < 0x80 then [n]
  else if n < 0x800 then [0xC0 + n / 0x40, 0x80 + n % 0x40]
  else if n < 0x10000 then [0xE0 + n / 0x1000, 0x80 + n / 0x40 % 0x40, 0x80 + n % 0x40]
  else [0xF0 + n / 0x40000, 0x80 + n / 0x1000 % 0x40, 0x80 + n / 0x40 % 0x40, 0x80 + n % 0x40]

/-- A range without the surrogates in it. -/
def withoutSurrogates (r : Nat × Nat) : List (Nat × Nat) :=
  if r.1 < 0xE000 ∧ 0xD7FF < r.2 then
    [(r.1, 0xD7FF), (0xE000, r.2)].filter fun r => r.1 ≤ r.2
  else [r]

/-- Divides a range behind a code point. -/
def divide (n : Nat) (r : Nat × Nat) : List (Nat × Nat) :=
  if r.1 ≤ n ∧ n < r.2 then [(r.1, n), (n + 1, r.2)] else [r]

/-- Divides a range that goes over several blocks of a size: what begins or ends
inside a block comes off. -/
def align (size : Nat) (r : Nat × Nat) : List (Nat × Nat) :=
  if r.2 < 0x80 || r.1 / size = r.2 / size then [r]
  else
    let first := (r.1 + size - 1) / size * size
    let head := if r.1 < first then [(r.1, first - 1)] else []
    let last := (r.2 + 1) / size * size
    let body :=
      if first / size = r.2 / size || last = r.2 + 1 then [(first, r.2)]
      else [(first, last - 1), (last, r.2)]
    head ++ body

/-- The ranges of bytes, place by place, that encode the parts of a range. -/
def encodings (r : Nat × Nat) : List (List (Nat × Nat)) :=
  let parts := withoutSurrogates r
  let parts := [0x7F, 0x7FF, 0xFFFF].foldl (fun parts n => parts.flatMap (divide n)) parts
  let parts := [0x40, 0x1000, 0x40000].foldl (fun parts size => parts.flatMap (align size)) parts
  parts.map fun r => (encode r.1).zip (encode r.2)

end FilterQuery.Text
