import FilterQuery.Query
import FilterQuery.Proofs.ScanSteps

/-!
# Tiling

The tokens of lexemes are pieces of the text, one behind the other, and what is
between them is vacant: blanks, and parentheses with nothing in them.  The same
holds between the parentheses of each group.  So no other character of a text is
dropped by the scanner.

The proof goes along the derivation of a scan, with the vacant text in front of
the next lexeme kept apart until that lexeme, or the end, is there.
-/

namespace FilterQuery

open Text (byteLength isBlank slice?)

namespace Text

/-- A piece of text is the slice between its byte positions. -/
theorem slice?_append (before piece after : List Char) :
    slice? (before ++ piece ++ after) (byteLength before) (byteLength before + byteLength piece) =
      some piece := by
  have hcut : splitAtByte? (byteLength before) (before ++ piece ++ after) =
      some (before, piece ++ after) := by
    rw [List.append_assoc]
    exact splitAtByte?_byteLength _ _
  have hnot : ¬ byteLength before + byteLength piece < byteLength before := by omega
  simp only [slice?, hcut, Option.bind_eq_bind, Option.bind_some, if_neg hnot,
    Nat.add_sub_cancel_left, splitAtByte?_byteLength]

/-- Text that is split at a byte comes together again. -/
theorem splitAtByte?_eq_some {n : Nat} {cs front behind : List Char}
    (h : splitAtByte? n cs = some (front, behind)) :
    cs = front ++ behind ∧ byteLength front = n := by
  induction cs generalizing n front with
  | nil =>
      cases n with
      | zero =>
          cases h
          exact ⟨rfl, rfl⟩
      | succ n => cases h
  | cons c cs ih =>
      cases n with
      | zero =>
          cases h
          exact ⟨rfl, rfl⟩
      | succ n =>
          rw [splitAtByte?] at h
          split at h
          · next hle =>
              obtain ⟨found, hfound, heq⟩ := Option.map_eq_some_iff.mp h
              cases heq
              obtain ⟨rfl, hlength⟩ := ih hfound
              exact ⟨rfl, by rw [byteLength, hlength]; omega⟩
          · cases h

/-- A slice is a part of the text between two parts of known lengths. -/
theorem slice?_eq_some {cs piece : List Char} {start stop : Nat}
    (h : slice? cs start stop = some piece) :
    ∃ before after, cs = before ++ piece ++ after ∧ byteLength before = start ∧
      stop = start + byteLength piece := by
  simp only [slice?, Option.bind_eq_bind, Option.bind_eq_some_iff] at h
  obtain ⟨⟨before, rest⟩, hbefore, h⟩ := h
  split at h
  · cases h
  · next hle =>
      obtain ⟨⟨piece', after⟩, hpiece, heq⟩ := Option.bind_eq_some_iff.mp h
      cases heq
      obtain ⟨rfl, hstart⟩ := splitAtByte?_eq_some hbefore
      obtain ⟨rfl, hlength⟩ := splitAtByte?_eq_some hpiece
      refine ⟨before, after, (List.append_assoc _ _ _).symm, hstart, ?_⟩
      rw [hlength]
      omega

/-- A character whose place is within a part of the text is in that part. -/
theorem mem_of_byteLength {before piece after front behind : List Char} {c : Char}
    (h : before ++ piece ++ after = front ++ c :: behind)
    (hstart : byteLength before ≤ byteLength front)
    (hstop : byteLength front < byteLength before + byteLength piece) : c ∈ piece := by
  induction before generalizing front with
  | nil =>
      induction piece generalizing front with
      | nil => simp [byteLength] at hstop
      | cons d piece ih =>
          cases front with
          | nil =>
              cases h
              exact List.mem_cons_self
          | cons e front =>
              simp only [List.nil_append, List.cons_append, List.cons.injEq] at h ih
              simp only [byteLength] at hstop ih
              rw [h.1] at hstop
              exact List.mem_cons_of_mem d (ih h.2 (Nat.zero_le _) (by omega))
  | cons d before ih =>
      have hd : 0 < d.utf8Size := d.utf8Size_pos
      cases front with
      | nil =>
          simp only [byteLength] at hstart
          omega
      | cons e front =>
          simp only [List.cons_append, List.cons.injEq] at h
          simp only [byteLength] at hstart hstop
          rw [h.1] at hstart hstop
          exact ih h.2 (by omega) (by omega)

end Text

namespace Token

/-- The token is a piece of the text: not empty, and cut between characters. -/
structure IsPieceOf (source : String) (t : Token) : Prop where
  nonempty : 0 < t.length
  slice : slice? source.toList t.position t.stop = some t.text.toList

/-- The token ends before the other begins. -/
structure Precedes (t u : Token) : Prop where
  position : t.position < u.position
  stop : t.stop ≤ u.position

/-- A token made of characters in the text is a piece of it. -/
theorem isPieceOf_ofChars {source : String} {before piece after : List Char} (hne : piece ≠ [])
    (hsource : source.toList = before ++ (piece ++ after)) :
    (ofChars (byteLength before) piece).IsPieceOf source where
  nonempty := Nat.lt_of_lt_of_le (List.length_pos_of_ne_nil hne) (Text.length_le_byteLength piece)
  slice := by
    rw [hsource, ofChars, stop, String.toList_ofList, ← List.append_assoc]
    exact Text.slice?_append before piece after

end Token

/-- Blanks, and parentheses around vacant text. -/
inductive IsVacant : List Char → Prop where
  | nil : IsVacant []
  | blank {c : Char} {cs : List Char} (hc : isBlank c = true) (h : IsVacant cs) : IsVacant (c :: cs)
  | group {inside behind : List Char} (hinside : IsVacant inside) (hbehind : IsVacant behind) :
      IsVacant ('(' :: (inside ++ ')' :: behind))

/-- Vacant text behind vacant text is vacant. -/
theorem IsVacant.append {as bs : List Char} (ha : IsVacant as) (hb : IsVacant bs) :
    IsVacant (as ++ bs) := by
  induction ha with
  | nil => exact hb
  | blank hc _ ih => exact .blank hc ih
  | group hinside _ _ ih =>
      simp only [List.cons_append, List.append_assoc]
      exact .group hinside ih

/-- A character of vacant text is a blank or a parenthesis. -/
theorem IsVacant.mem_cases {cs : List Char} (h : IsVacant cs) {c : Char} (hc : c ∈ cs) :
    isBlank c = true ∨ c = '(' ∨ c = ')' := by
  induction h with
  | nil => cases hc
  | blank hblank _ ih =>
      cases List.mem_cons.mp hc with
      | inl hroot => exact .inl (hroot ▸ hblank)
      | inr hrest => exact ih hrest
  | group _ _ ihinside ihbehind =>
      simp only [List.mem_cons, List.mem_append] at hc
      rcases hc with hc | hc | hc | hc
      · exact .inr (.inl hc)
      · exact ihinside hc
      · exact .inr (.inr hc)
      · exact ihbehind hc

namespace Lexeme

/-- The ranges between the tokens of lexemes, in front of the first and behind
the last. -/
def gaps (start stop : Nat) : List Lexeme → List (Nat × Nat)
  | [] => [(start, stop)]
  | l :: ls => (start, l.token.position) :: gaps l.token.stop stop ls

/-- The tokens of the lexemes are pieces of the text in a range, one behind the
other, with vacant text around them, and each group is a pair of parentheses
with lexemes in it. -/
structure IsTiling (source : String) (start stop : Nat) (ls : List Lexeme) : Prop where
  pieces : ∀ l ∈ ls, l.token.IsPieceOf source
  within : ∀ l ∈ ls, start ≤ l.token.position ∧ l.token.stop ≤ stop
  ordered : ls.Pairwise fun l r => l.token.Precedes r.token
  vacant : ∀ gap ∈ gaps start stop ls,
    ∃ cs, slice? source.toList gap.1 gap.2 = some cs ∧ IsVacant cs
  groups : ∀ inner token, .group inner token ∈ ls →
    inner ≠ [] ∧ ∃ inside, token.text.toList = '(' :: inside ++ [')']

/-- The lexemes tile a range of the text, and those of each group tile the range
between its parentheses. -/
inductive Tiles (source : String) : Nat → Nat → List Lexeme → Prop where
  | intro {start stop : Nat} {ls : List Lexeme} (level : IsTiling source start stop ls)
      (below : ∀ inner token, .group inner token ∈ ls →
        Tiles source (token.position + 1) (token.stop - 1) inner) :
      Tiles source start stop ls

variable {source : String} {start stop : Nat} {ls : List Lexeme}

/-- Lexemes that tile a range do so at the outermost level. -/
theorem Tiles.level (h : Tiles source start stop ls) : IsTiling source start stop ls := by
  cases h with
  | intro level _ => exact level

/-- Vacant text is tiled by nothing. -/
theorem Tiles.of_vacant {cs : List Char} (hslice : slice? source.toList start stop = some cs)
    (hvacant : IsVacant cs) : Tiles source start stop [] := by
  have hlevel : IsTiling source start stop [] :=
    { pieces := fun _ hl => absurd hl List.not_mem_nil
      within := fun _ hl => absurd hl List.not_mem_nil
      ordered := .nil
      vacant := by
        intro gap hgap
        obtain rfl := List.mem_singleton.mp hgap
        exact ⟨cs, hslice, hvacant⟩
      groups := fun _ _ hl => absurd hl List.not_mem_nil }
  exact .intro hlevel fun _ _ hl => absurd hl List.not_mem_nil

/-- A lexeme in front of others, behind vacant text. -/
theorem Tiles.cons {l : Lexeme} {cs : List Char}
    (hslice : slice? source.toList start l.token.position = some cs) (hvacant : IsVacant cs)
    (hpiece : l.token.IsPieceOf source) (hstop : l.token.stop ≤ stop)
    (hgroup : ∀ inner token, l = .group inner token →
      (inner ≠ [] ∧ ∃ inside, token.text.toList = '(' :: inside ++ [')']) ∧
        Tiles source (token.position + 1) (token.stop - 1) inner)
    (hrest : Tiles source l.token.stop stop ls) : Tiles source start stop (l :: ls) := by
  obtain ⟨hlevel, hbelow⟩ := hrest
  have hnonempty := hpiece.nonempty
  have hlength : l.token.position < l.token.stop := by
    rw [Token.stop]
    omega
  have hstart : start ≤ l.token.position := by
    obtain ⟨_, _, _, _, hposition⟩ := Text.slice?_eq_some hslice
    omega
  refine ⟨⟨?_, ?_, ?_, ?_, ?_⟩, ?_⟩
  · intro r hr
    cases List.mem_cons.mp hr with
    | inl hl => exact hl ▸ hpiece
    | inr hr => exact hlevel.pieces r hr
  · intro r hr
    cases List.mem_cons.mp hr with
    | inl hl =>
        rw [hl]
        exact ⟨hstart, hstop⟩
    | inr hr =>
        have hwithin := hlevel.within r hr
        exact ⟨by omega, hwithin.2⟩
  · refine .cons ?_ hlevel.ordered
    intro r hr
    have hwithin := hlevel.within r hr
    exact ⟨by omega, hwithin.1⟩
  · intro gap hgap
    cases List.mem_cons.mp hgap with
    | inl hfirst =>
        rw [hfirst]
        exact ⟨cs, hslice, hvacant⟩
    | inr hmore => exact hlevel.vacant gap hmore
  · intro inner token hmem
    cases List.mem_cons.mp hmem with
    | inl hl => exact (hgroup inner token hl.symm).1
    | inr hmem => exact hlevel.groups inner token hmem
  · intro inner token hmem
    cases List.mem_cons.mp hmem with
    | inl hl => exact (hgroup inner token hl.symm).2
    | inr hmem => exact hbelow inner token hmem

/-- A lexeme whose token is the next piece of the text. -/
theorem Tiles.cons_piece {l : Lexeme} (before gap piece after : List Char)
    (hsource : source.toList = before ++ gap ++ (piece ++ after)) (hgap : IsVacant gap)
    (hne : piece ≠ []) (htoken : l.token = Token.ofChars (byteLength (before ++ gap)) piece)
    (hstop : l.token.stop ≤ stop)
    (hgroup : ∀ inner token, l = .group inner token →
      (inner ≠ [] ∧ ∃ inside, token.text.toList = '(' :: inside ++ [')']) ∧
        Tiles source (token.position + 1) (token.stop - 1) inner)
    (hrest : Tiles source l.token.stop stop ls) :
    Tiles source (byteLength before) stop (l :: ls) := by
  have hposition : l.token.position = byteLength before + byteLength gap := by
    rw [htoken, ← Text.byteLength_append]
    rfl
  have hslice : slice? source.toList (byteLength before) l.token.position = some gap := by
    rw [hsource, hposition]
    exact Text.slice?_append before gap (piece ++ after)
  have hpiece : l.token.IsPieceOf source := by
    rw [htoken]
    exact Token.isPieceOf_ofChars hne hsource
  exact .cons hslice hgap hpiece hstop hgroup hrest

/-- A group whose lexemes tile the text between its parentheses. -/
theorem Tiles.cons_group {inner : List Lexeme} {position : Nat}
    (before gap inside after : List Char)
    (hsource : source.toList = before ++ gap ++ ('(' :: inside ++ [')'] ++ after))
    (hgap : IsVacant gap) (hne : inner ≠ []) (hposition : position = byteLength (before ++ gap))
    (hinside : Tiles source (position + 1) (position + 1 + byteLength inside) inner)
    (hstop : position + byteLength ('(' :: inside ++ [')']) ≤ stop)
    (hrest : Tiles source (position + byteLength ('(' :: inside ++ [')'])) stop ls) :
    Tiles source (byteLength before) stop
      (.group inner (Token.ofChars position ('(' :: inside ++ [')'])) :: ls) := by
  refine .cons_piece before gap ('(' :: inside ++ [')']) after hsource hgap (by simp)
    (by rw [← hposition]; rfl) hstop ?_ hrest
  intro inner' token heq
  cases heq
  have hclose : (Token.ofChars position ('(' :: inside ++ [')'])).stop - 1 =
      position + 1 + byteLength inside := by
    have hchars : '(' :: inside ++ [')'] = ['('] ++ inside ++ [')'] := rfl
    have hparenthesis : byteLength ['('] = 1 ∧ byteLength [')'] = 1 := ⟨rfl, rfl⟩
    simp only [Token.stop, Token.ofChars, hchars, Text.byteLength_append]
    omega
  exact ⟨⟨hne, inside, String.toList_ofList⟩, hclose ▸ hinside⟩

variable {alphabet : List String} {position : Nat} {cs : List Char}

/-- Text without lexemes is vacant. -/
theorem Scans.isVacant (h : Scans alphabet position cs ls) (hnil : ls = []) : IsVacant cs := by
  induction h with
  | nil position => exact .nil
  | blank hc _ ih => exact .blank hc (ih hnil)
  | @group _ _ _ inner _ _ _ _ ihinner ihrest =>
      obtain ⟨hgrouped, hrest⟩ := List.append_eq_nil_iff.mp hnil
      cases inner with
      | nil => exact .group (ihinner rfl) (ihrest hrest)
      | cons l inner => cases hgrouped
  | single _ _ _ _ => cases hnil

/-- **The lexemes of a scan tile the text**, together with vacant text in front
of it. -/
theorem Scans.tiles (h : Scans alphabet position cs ls) (before gap after : List Char)
    (hsource : source.toList = before ++ gap ++ (cs ++ after)) (hgap : IsVacant gap)
    (hposition : position = byteLength (before ++ gap)) :
    Tiles source (byteLength before) (position + byteLength cs) ls := by
  induction h generalizing before gap after with
  | nil position =>
      have hslice := Text.slice?_append before gap ([] ++ after)
      rw [← hsource, ← Text.byteLength_append, ← hposition] at hslice
      exact .of_vacant hslice hgap
  | @blank position c cs ls hc _ ih =>
      have hlength : position + byteLength (c :: cs) =
          position + c.utf8Size + byteLength cs := by
        rw [byteLength, Nat.add_assoc]
      rw [hlength]
      refine ih before (gap ++ [c]) after ?_ (hgap.append (.blank hc .nil)) ?_
      · rw [hsource]
        simp
      · rw [hposition]
        simp [byteLength, Nat.add_assoc]
  | @group position inside behind inner ls _ hinner _ ihinner ihrest =>
      rw [byteLength_group, ← Nat.add_assoc]
      have hplace : ∀ piece, byteLength (before ++ gap ++ piece) = position + byteLength piece := by
        intro piece
        rw [Text.byteLength_append (before ++ gap), hposition]
      cases inner with
      | nil =>
          have hvacant : IsVacant ('(' :: inside ++ [')']) := .group (hinner.isVacant rfl) .nil
          refine ihrest before (gap ++ ('(' :: inside ++ [')'])) after ?_ (hgap.append hvacant) ?_
          · rw [hsource]
            simp
          · rw [← List.append_assoc, hplace]
      | cons l inner =>
          have hinside := ihinner (before ++ gap ++ ['(']) [] (')' :: (behind ++ after))
            (by rw [hsource]; simp) .nil (by rw [List.append_nil, hplace]; rfl)
          have hbehind := ihrest (before ++ gap ++ ('(' :: inside ++ [')'])) [] after
            (by rw [hsource]; simp) .nil (by rw [List.append_nil, hplace])
          rw [hplace] at hinside hbehind
          exact .cons_group before gap inside (behind ++ after) (by rw [hsource]; simp) hgap
            (List.cons_ne_nil _ _) hposition hinside (Nat.le_add_right _ _) hbehind
  | @single position c cs behind l ls _ hfinds _ ih =>
      obtain ⟨piece, hne, hpiece, htoken⟩ := hfinds.exists_piece
      have hstop : l.token.stop = byteLength (before ++ gap ++ piece) := by
        rw [htoken, Text.byteLength_append (before ++ gap), ← hposition]
        rfl
      rw [hpiece] at hsource ⊢
      have hrest := ih (before ++ gap ++ piece) [] after
        (by rw [hsource]; simp) .nil (by rw [List.append_nil, hstop])
      rw [← hstop] at hrest
      rw [Text.byteLength_append, ← Nat.add_assoc, hposition, ← Text.byteLength_append, ← hstop]
      refine .cons_piece before gap piece (behind ++ after) (by rw [hsource]; simp) hgap hne
        (by rw [← hposition, htoken]) (Nat.le_add_right _ _) ?_ hrest
      intro inner token hgroup
      exact absurd hgroup (hfinds.ne_group inner token)

/-- The tokens of lexemes in a row are those of each of them. -/
theorem flatTokensOf_eq_flatMap (ls : List Lexeme) : flatTokensOf ls = ls.flatMap flatTokens := by
  induction ls with
  | nil => rfl
  | cons l ls ih => rw [flatTokensOf, ih, List.flatMap_cons]

/-- A lexeme is a group, or has its own token only. -/
theorem group_or_single (l : Lexeme) :
    (∃ inner token, l = .group inner token) ∨ flatTokens l = [l.token] := by
  cases l with
  | group inner token => exact .inl ⟨inner, token, rfl⟩
  | _ => exact .inr rfl

/-- The tokens of lexemes are pieces of the text in the range that the lexemes
tile. -/
theorem Tiles.pieces (h : Tiles source start stop ls) :
    ∀ t ∈ flatTokensOf ls, t.IsPieceOf source ∧ start ≤ t.position ∧ t.stop ≤ stop := by
  induction h with
  | @intro start stop ls level _ ih =>
      intro t ht
      rw [flatTokensOf_eq_flatMap] at ht
      obtain ⟨l, hl, ht⟩ := List.mem_flatMap.mp ht
      have hwithin := level.within l hl
      rcases group_or_single l with ⟨inner, token, rfl⟩ | hsingle
      · have hinner := ih inner token hl t ht
        have htoken : (Lexeme.group inner token).token = token := rfl
        rw [htoken] at hwithin
        exact ⟨hinner.1, by omega, by omega⟩
      · rw [hsingle] at ht
        obtain rfl := List.mem_singleton.mp ht
        exact ⟨level.pieces l hl, hwithin⟩

/-- The tokens of one lexeme are within its own. -/
theorem Tiles.within (h : Tiles source start stop ls) {l : Lexeme} (hl : l ∈ ls) {t : Token}
    (ht : t ∈ flatTokens l) :
    t.IsPieceOf source ∧ l.token.position ≤ t.position ∧ t.stop ≤ l.token.stop := by
  obtain ⟨level, below⟩ := h
  rcases group_or_single l with ⟨inner, token, rfl⟩ | hsingle
  · obtain ⟨hpiece, hposition, hstop⟩ := (below inner token hl).pieces t ht
    have htoken : (Lexeme.group inner token).token = token := rfl
    rw [htoken]
    exact ⟨hpiece, by omega, by omega⟩
  · rw [hsingle] at ht
    obtain rfl := List.mem_singleton.mp ht
    exact ⟨level.pieces l hl, Nat.le_refl _, Nat.le_refl _⟩

/-- **The tokens of lexemes are one behind the other**, those of groups
included. -/
theorem Tiles.ordered (h : Tiles source start stop ls) :
    (flatTokensOf ls).Pairwise Token.Precedes := by
  induction h with
  | @intro start stop ls level below ih =>
      have htiles : Tiles source start stop ls := .intro level below
      rw [flatTokensOf_eq_flatMap, List.pairwise_flatMap]
      constructor
      · intro l hl
        rcases group_or_single l with ⟨inner, token, rfl⟩ | hsingle
        · exact ih inner token hl
        · rw [hsingle]
          exact List.pairwise_singleton _ _
      · refine level.ordered.imp_of_mem fun {l r} hl hr hlr t ht u hu => ?_
        obtain ⟨hpiece, -, hstop⟩ := htiles.within hl ht
        obtain ⟨-, hposition, -⟩ := htiles.within hr hu
        have hnonempty := hpiece.nonempty
        have hbefore := hlr.stop
        have hlength : t.stop = t.position + t.length := rfl
        exact ⟨by omega, by omega⟩

/-- A place in the range is in a gap or in a token. -/
theorem exists_gap_or_token (ls : List Lexeme) {i : Nat} (hstart : start ≤ i) (hstop : i < stop) :
    (∃ gap ∈ gaps start stop ls, gap.1 ≤ i ∧ i < gap.2) ∨
      ∃ l ∈ ls, l.token.position ≤ i ∧ i < l.token.stop := by
  induction ls generalizing start with
  | nil => exact .inl ⟨(start, stop), List.mem_cons_self, hstart, hstop⟩
  | cons l ls ih =>
      by_cases hgap : i < l.token.position
      · exact .inl ⟨(start, l.token.position), List.mem_cons_self, hstart, hgap⟩
      · by_cases htoken : i < l.token.stop
        · exact .inr ⟨l, List.mem_cons_self, by omega, htoken⟩
        · have hbehind : l.token.stop ≤ i := Nat.le_of_not_lt htoken
          rcases ih hbehind with ⟨gap, hgap, hi⟩ | ⟨r, hr, hi⟩
          · exact .inl ⟨gap, List.mem_cons_of_mem _ hgap, hi⟩
          · exact .inr ⟨r, List.mem_cons_of_mem _ hr, hi⟩

/-- A character of a piece of the text is in the piece. -/
theorem mem_of_slice {first last : Nat} {piece front behind : List Char} {c : Char}
    (hslice : slice? source.toList first last = some piece)
    (hsource : source.toList = front ++ c :: behind) (hfirst : first ≤ byteLength front)
    (hlast : byteLength front < last) : c ∈ piece := by
  obtain ⟨before, after, htext, hbefore, hlength⟩ := Text.slice?_eq_some hslice
  exact Text.mem_of_byteLength (htext.symm.trans hsource) (by omega) (by omega)

/-- What is in the token of a group, but not between its parentheses, is one of
them. -/
theorem parenthesis_of_outside {token : Token} {inside front behind : List Char} {c : Char}
    (hslice : slice? source.toList token.position token.stop = some token.text.toList)
    (htext : token.text.toList = '(' :: inside ++ [')'])
    (hsource : source.toList = front ++ c :: behind)
    (hin : token.position ≤ byteLength front ∧ byteLength front < token.stop)
    (hout : ¬ (token.position + 1 ≤ byteLength front ∧ byteLength front < token.stop - 1)) :
    c = '(' ∨ c = ')' := by
  obtain ⟨before, after, hparts, hbefore, hstop⟩ := Text.slice?_eq_some hslice
  have hopen : byteLength ['('] = 1 := rfl
  have hclose : byteLength [')'] = 1 := rfl
  have hchars : token.text.toList = ['('] ++ inside ++ [')'] := htext
  rw [hchars] at hparts
  rw [hchars, Text.byteLength_append, hclose] at hstop
  rw [hparts] at hsource
  by_cases hfirst : byteLength front = token.position
  · have hleft : before ++ ['('] ++ (inside ++ [')'] ++ after) = front ++ c :: behind := by
      simpa using hsource
    have hc : c ∈ ['('] := Text.mem_of_byteLength hleft (by omega) (by omega)
    exact .inl (List.mem_singleton.mp hc)
  · have hright : before ++ (['('] ++ inside) ++ [')'] ++ after = front ++ c :: behind := by
      simpa using hsource
    have hlength := Text.byteLength_append before (['('] ++ inside)
    have hc : c ∈ [')'] := Text.mem_of_byteLength hright (by omega) (by omega)
    exact .inr (List.mem_singleton.mp hc)

/-- **No character is dropped** but blanks and parentheses: all others are in
some token. -/
theorem Tiles.covers (h : Tiles source start stop ls) {front behind : List Char} {c : Char}
    (hsource : source.toList = front ++ c :: behind) (hstart : start ≤ byteLength front)
    (hstop : byteLength front < stop) :
    (isBlank c = true ∨ c = '(' ∨ c = ')') ∨
      ∃ t ∈ flatTokensOf ls, t.position ≤ byteLength front ∧ byteLength front < t.stop := by
  induction h with
  | @intro start stop ls level below ih =>
      rcases exists_gap_or_token ls hstart hstop with ⟨gap, hgap, hi⟩ | ⟨l, hl, hi⟩
      · obtain ⟨cs, hslice, hvacant⟩ := level.vacant gap hgap
        exact .inl (hvacant.mem_cases (mem_of_slice hslice hsource hi.1 hi.2))
      rw [flatTokensOf_eq_flatMap]
      rcases group_or_single l with ⟨inner, token, rfl⟩ | hsingle
      · by_cases hinside : token.position + 1 ≤ byteLength front ∧ byteLength front < token.stop - 1
        · rcases ih inner token hl hinside.1 hinside.2 with hvacant | ⟨t, ht, hit⟩
          · exact .inl hvacant
          · exact .inr ⟨t, List.mem_flatMap.mpr ⟨_, hl, ht⟩, hit⟩
        · left
          obtain ⟨-, inside, htext⟩ := level.groups inner token hl
          exact .inr (parenthesis_of_outside (level.pieces _ hl).slice htext hsource hi hinside)
      · exact .inr ⟨l.token, List.mem_flatMap.mpr ⟨l, hl, by simp [hsingle]⟩, hi⟩

variable {α : Type}

/-- **Lexemes tile the text.**  Whatever the operators, if a text is scanned
then the lexemes tile it, and those of each group tile the text between its
parentheses; so all characters are in some token except blanks and parentheses.
The tokens of a query are pieces of its text, one behind the other. -/
theorem lexemes_tile_the_text (engine : Engine α) (text : String) (mode : Mode) :
    (∀ alphabet ls, scan alphabet text = .ok ls →
      Tiles text 0 (byteLength text.toList) ls ∧
        ∀ front c behind, text.toList = front ++ c :: behind →
          (isBlank c = true ∨ c = '(' ∨ c = ')') ∨
            ∃ t ∈ flatTokensOf ls, t.position ≤ byteLength front ∧ byteLength front < t.stop) ∧
      (engine.parse text mode).tokens.Pairwise Token.Precedes ∧
        ∀ t ∈ (engine.parse text mode).tokens, t.IsPieceOf text := by
  have htiles : ∀ alphabet ls, scan alphabet text = .ok ls →
      Tiles text 0 (byteLength text.toList) ls := by
    intro alphabet ls hscan
    have h := (scans_of_scan hscan).tiles [] [] []
      (List.append_nil _).symm .nil rfl
    rwa [Nat.zero_add] at h
  refine ⟨fun alphabet ls hscan => ⟨htiles alphabet ls hscan, ?_⟩, ?_⟩
  · intro front c behind hsource
    refine (htiles alphabet ls hscan).covers hsource (Nat.zero_le _) ?_
    have hc : 0 < c.utf8Size := c.utf8Size_pos
    rw [hsource, Text.byteLength_append, byteLength]
    omega
  · cases hscan : scan engine.alphabet text with
    | error e =>
        have htokens : (engine.parse text mode).tokens = [] := by
          rw [Engine.parse, hscan]
        rw [htokens]
        exact ⟨.nil, fun t ht => absurd ht List.not_mem_nil⟩
    | ok ls =>
        have htokens : (engine.parse text mode).tokens = flatTokensOf ls := by
          rw [Engine.parse, hscan]
          dsimp only
          unfold Query.compile
          split
          · rfl
          · rfl
        rw [htokens]
        exact ⟨(htiles _ ls hscan).ordered, fun t ht => ((htiles _ ls hscan).pieces t ht).1⟩

/-- The text `a ( ( ) ) (é or b)`: one pair of parentheses is vacant, the other
is a group, in which the token of the first word takes two bytes. -/
theorem tiling_beside_a_vacant_group :
    let text := "a ( ( ) ) (é or b)"
    let behind := " or b)".toList
    (∃ ls, scan ({} : Engine Nat).alphabet text = .ok ls ∧
      Tiles text 0 (byteLength text.toList) ls ∧
      text.toList = "a ( ( ) ) (".toList ++ 'é' :: behind ∧
      ∃ t ∈ flatTokensOf ls, t.position ≤ 11 ∧ 11 < t.stop) ∧
      (({} : Engine Nat).parse text).tokens =
        [⟨"a", 0, 1⟩, ⟨"é", 11, 2⟩, ⟨"or", 14, 2⟩, ⟨"b", 17, 1⟩] := by
  intro text behind
  obtain ⟨htiles, -, -⟩ := lexemes_tile_the_text ({} : Engine Nat) text .strict
  have hok : (scan ({} : Engine Nat).alphabet text).toBool = true := by decide +kernel
  have htokens : (({} : Engine Nat).parse text).tokens =
      [⟨"a", 0, 1⟩, ⟨"é", 11, 2⟩, ⟨"or", 14, 2⟩, ⟨"b", 17, 1⟩] := by decide +kernel
  have htext : text.toList = "a ( ( ) ) (".toList ++ 'é' :: behind := by decide +kernel
  have hletter : isBlank 'é' = false := by decide +kernel
  cases hscan : scan ({} : Engine Nat).alphabet text with
  | error e =>
      rw [hscan] at hok
      cases hok
  | ok ls =>
      obtain ⟨hlevels, hcovers⟩ := htiles _ ls hscan
      rcases hcovers _ 'é' behind htext with hvacant | hcovered
      · exfalso
        rcases hvacant with hblank | hopen | hclose
        · exact absurd (hblank.symm.trans hletter) (by decide)
        · exact absurd hopen (by decide)
        · exact absurd hclose (by decide)
      · exact ⟨⟨ls, rfl, hlevels, htext, hcovered⟩, htokens⟩

end Lexeme

end FilterQuery
