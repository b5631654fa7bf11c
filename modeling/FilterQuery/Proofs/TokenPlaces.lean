import FilterQuery.Proofs.Combination
import FilterQuery.Proofs.ScanErrors

/-!
# Where tokens lie

Every token of a lexeme, and of the nested query in it, is a piece of the text
that was scanned.  So are the tokens of the nodes that are made of lexemes, and
of those that stand for what was left out between two of them.  What is said
about a token is said about a piece of the text.
-/

namespace FilterQuery

open Text (byteLength isBlank)

namespace Text.IsSpan

variable {cs : List Char} {index length : Nat}

theorem front (cs : List Char) : IsSpan cs 0 0 := ⟨[], [], cs, rfl, rfl, rfl⟩

/-- Of two fronts of a text the one with fewer bytes is a front of the other. -/
theorem prefix_of_le {as bs xs ys : List Char} (h : as ++ xs = bs ++ ys)
    (hle : byteLength as ≤ byteLength bs) : ∃ gap, bs = as ++ gap := by
  rcases List.append_eq_append_iff.mp h with ⟨gap, hgap, -⟩ | ⟨gap, rfl, -⟩
  · exact ⟨gap, hgap⟩
  · rw [byteLength_append] at hle
    have hlength := length_le_byteLength gap
    obtain rfl : gap = [] := List.length_eq_zero_iff.mp (by omega)
    exact ⟨[], by simp⟩

/-- What lies between two spans is one, and nothing does if they overlap. -/
theorem between {index' length' : Nat} (h : IsSpan cs index length)
    (h' : IsSpan cs index' length') :
    IsSpan cs (index + length) (index' - (index + length)) := by
  obtain ⟨before, piece, after, hcs, rfl, rfl⟩ := h
  obtain ⟨before', piece', after', hcs', rfl, rfl⟩ := h'
  rcases Nat.le_total (byteLength before + byteLength piece) (byteLength before') with hle | hle
  · have heq : before ++ piece ++ after = before' ++ (piece' ++ after') := by
      rw [← hcs, hcs', List.append_assoc]
    obtain ⟨gap, rfl⟩ := prefix_of_le heq (by rwa [byteLength_append])
    refine ⟨before ++ piece, gap, piece' ++ after', by rw [hcs', List.append_assoc], ?_, ?_⟩
    · exact byteLength_append _ _
    · rw [byteLength_append, byteLength_append]
      omega
  · rw [Nat.sub_eq_zero_of_le hle]
    exact ⟨before ++ piece, [], after, by simpa using hcs, byteLength_append _ _, rfl⟩

end Text.IsSpan

/-- The token is a piece of the text. -/
def Token.IsWithin (source : String) (t : Token) : Prop :=
  Text.IsSpan source.toList t.position t.length

/-- The error is about a piece of the text. -/
def QueryError.IsWithin (source : String) (e : QueryError) : Prop :=
  Text.IsSpan source.toList e.index e.length

variable {source : String}

/-- An error about a piece of the text is within it. -/
theorem Token.IsWithin.about {t : Token} (h : t.IsWithin source) (cause : Cause) :
    (QueryError.about cause t).IsWithin source := h

theorem Token.isWithin_default : ({} : Token).IsWithin source := .front _

/-- The gap between two pieces of the text is one. -/
theorem Token.IsWithin.gap {t u : Token} (h : t.IsWithin source) (h' : u.IsWithin source) :
    (Token.ofRange source t.stop u.position).IsWithin source := Text.IsSpan.between h h'

/-- The token is a piece of the characters, which begin at a place. -/
def Token.IsFrom (position : Nat) (cs : List Char) (t : Token) : Prop :=
  ∃ front piece behind, cs = front ++ piece ++ behind ∧
    t = Token.ofChars (position + byteLength front) piece

namespace Token.IsFrom

variable {position : Nat} {cs : List Char} {t : Token}

/-- A piece of the characters of a text is one of the text. -/
theorem isWithin (h : t.IsFrom 0 source.toList) : t.IsWithin source := by
  obtain ⟨front, piece, behind, hcs, rfl⟩ := h
  exact ⟨front, piece, behind, hcs, (Nat.zero_add _).symm, rfl⟩

/-- A piece of some characters is one of more around them. -/
theorem within {start : Nat} {front : List Char} (h : t.IsFrom position cs)
    (hposition : position = start + byteLength front) (behind : List Char) :
    t.IsFrom start (front ++ cs ++ behind) := by
  obtain ⟨before, piece, after, rfl, rfl⟩ := h
  refine ⟨front ++ before, piece, after ++ behind, by simp, ?_⟩
  rw [hposition, Text.byteLength_append, Nat.add_assoc]

/-- A piece of the rest is one of the whole. -/
theorem of_suffix {rest : List Char} (hsuffix : rest <:+ cs)
    (h : t.IsFrom (position + (byteLength cs - byteLength rest)) rest) : t.IsFrom position cs := by
  obtain ⟨front, rfl⟩ := hsuffix
  have hplace : position + (byteLength (front ++ rest) - byteLength rest) =
      position + byteLength front := by
    rw [Text.byteLength_append, Nat.add_sub_cancel]
  have hwithin := h.within hplace []
  rwa [List.append_nil] at hwithin

/-- Characters in front are a piece. -/
theorem of_piece (position : Nat) (piece behind : List Char) :
    (Token.ofChars position piece).IsFrom position (piece ++ behind) :=
  ⟨[], piece, behind, rfl, rfl⟩

end Token.IsFrom

namespace Lexeme

mutual

/-- The token of a lexeme, and those of what is in it. -/
def everyToken : Lexeme → List Token
  | .group inner token => token :: everyTokenOf inner
  | .filter _ block token => token :: (block.map NestedBlock.token).toList
  | l => [l.token]

/-- The tokens of lexemes, and those of what is in them. -/
def everyTokenOf : List Lexeme → List Token
  | [] => []
  | l :: ls => everyToken l ++ everyTokenOf ls

end

/-- Tokens of lexemes one after the other are those of both parts. -/
theorem everyTokenOf_append (ls ms : List Lexeme) :
    everyTokenOf (ls ++ ms) = everyTokenOf ls ++ everyTokenOf ms := by
  induction ls with
  | nil => rfl
  | cons l ls ih => rw [List.cons_append, everyTokenOf, everyTokenOf, ih, List.append_assoc]

/-- The tokens of a group are its own and those in it. -/
theorem mem_everyTokenOf_grouped {inner : List Lexeme} {token t : Token}
    (h : t ∈ everyTokenOf (grouped inner token)) : t = token ∨ t ∈ everyTokenOf inner := by
  unfold grouped at h
  split at h
  · cases h
  · simpa [everyTokenOf, everyToken] using h

variable {alphabet : List String} {position : Nat} {cs behind : List Char}

/-- The token of a nested query is a piece of the characters. -/
theorem block?_isFrom {block : NestedBlock} (h : block? position cs = .ok (some (block, behind))) :
    block.token.IsFrom position cs := by
  obtain ⟨htakes, htoken⟩ := block?_takes h
  obtain ⟨piece, -, rfl⟩ := htakes.exists_piece
  rw [htoken, tokenBefore_append]
  exact .of_piece position piece behind

/-- The token of a value is a piece of the characters. -/
theorem filterValue_isFrom {value : FilterValue}
    (h : filterValue position cs = .ok (value, behind)) :
    ∀ block ∈ value.block, block.token.IsFrom position cs := by
  unfold filterValue at h
  split at h
  · split at h
    · cases h
      exact fun block hblock => absurd hblock (Option.not_mem_none block)
    · cases h
  · obtain ⟨found, hfound, h⟩ := bind_eq_ok.mp h
    cases found with
    | none =>
        cases h
        exact fun block hblock => absurd hblock (Option.not_mem_none block)
    | some found =>
        cases h
        rintro block ⟨⟩
        exact block?_isFrom hfound

/-- The token of a filter's value is a piece of the characters. -/
theorem filter?_isFrom {kind : Token → Lexeme}
    (h : filter? alphabet position cs = .ok (some (kind, behind))) :
    ∃ f block, kind = filter f block ∧ ∀ b ∈ block, b.token.IsFrom position cs := by
  obtain ⟨c, tail, f, value, rest, rfl, hrest, hvalue, rfl⟩ := filter?_eq_found h
  have hsuffix : rest <:+ c :: tail := hrest.trans (List.suffix_cons c tail)
  exact ⟨f, value.block, rfl, fun b hb => .of_suffix hsuffix (filterValue_isFrom hvalue b hb)⟩

/-- What a rule finds has pieces of the characters for its tokens. -/
theorem Finds.everyToken_isFrom {l : Lexeme} (h : Finds alphabet position cs l behind) :
    ∀ t ∈ everyToken l, t.IsFrom position cs := by
  obtain ⟨piece, -, hpiece, htoken⟩ := h.exists_piece
  have hown : l.token.IsFrom position cs := by
    rw [hpiece, htoken]
    exact .of_piece position piece behind
  cases h with
  | filter _ _ h =>
      obtain ⟨f, block, rfl, hblock⟩ := filter?_isFrom h
      intro t ht
      rcases List.mem_cons.mp ht with rfl | ht
      · exact hown
      · obtain ⟨b, hb, rfl⟩ := Option.mem_map.mp (Option.mem_toList.mp ht)
        exact hblock b hb
  | combinator h => rcases combinator?_kind h with rfl | rfl | rfl <;> simpa [everyToken] using hown
  | nested _ h => simpa [everyToken] using hown
  | toggle _ _ _ h =>
      obtain ⟨name, rfl⟩ := toggle?_kind h
      simpa [everyToken] using hown
  | comment _ _ _ _ h =>
      obtain ⟨text, rfl⟩ := comment?_kind h
      simpa [everyToken] using hown
  | word _ _ _ _ _ h =>
      obtain ⟨w, rfl⟩ := word?_kind h
      simpa [everyToken] using hown

/-- **Every token is a piece of the text that is scanned.** -/
theorem Scans.everyToken_isFrom {ls : List Lexeme} (h : Scans alphabet position cs ls) :
    ∀ t ∈ everyTokenOf ls, t.IsFrom position cs := by
  induction h with
  | nil => exact fun t ht => absurd ht List.not_mem_nil
  | @blank position c cs _ _ _ ih =>
      intro t ht
      have hwithin : t.IsFrom position ([c] ++ cs ++ []) := (ih t ht).within rfl []
      rwa [List.append_nil] at hwithin
  | @group position inside behind inner ls _ _ _ ihinner ihrest =>
      intro t ht
      rw [everyTokenOf_append, List.mem_append] at ht
      rw [group_append]
      rcases ht with ht | ht
      · rcases mem_everyTokenOf_grouped ht with rfl | ht
        · exact .of_piece position _ behind
        · have hwithin : t.IsFrom position (['('] ++ inside ++ (')' :: behind)) :=
            (ihinner t ht).within rfl _
          simpa using hwithin
      · have hwithin : t.IsFrom position ('(' :: inside ++ [')'] ++ behind ++ []) :=
          (ihrest t ht).within rfl []
        rwa [List.append_nil] at hwithin
  | @single position c cs behind m ls _ hfinds _ ih =>
      intro t ht
      rw [everyTokenOf, List.mem_append] at ht
      rcases ht with ht | ht
      · exact hfinds.everyToken_isFrom t ht
      · obtain ⟨piece, -, hpiece, htoken⟩ := hfinds.exists_piece
        have hstop : m.token.stop = position + byteLength piece := by rw [htoken]; rfl
        have hwithin := (ih t ht).within hstop []
        rwa [List.append_nil, ← hpiece] at hwithin

/-- **The tokens of a text are pieces of it.** -/
theorem everyToken_isWithin {ls : List Lexeme} (h : scan alphabet source = .ok ls) :
    ∀ t ∈ everyTokenOf ls, t.IsWithin source :=
  fun t ht => ((scans_of_scan h).everyToken_isFrom t ht).isWithin

end Lexeme

end FilterQuery
