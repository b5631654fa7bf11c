import FilterQuery.Proofs.Mixtures
import FilterQuery.Proofs.Nesting
import FilterQuery.Proofs.Occurrences
import FilterQuery.Proofs.Remarks
import FilterQuery.Proofs.TokenPlaces

/-!
# Errors at places of their own

The tokens of lexemes lie one behind the other, those of a group inside its
token, and that of a nested query behind the name of the filter it is the value
of.  The errors about names are at such tokens, and those of combinators that
mix nested queries with conditions are at the tokens of the combinators, or at
the gaps where one is left out.  So, without a fatal error, no two errors of a
text are at the same place.

Where nested queries cannot be resolved this is said once of each of them, and
the places of its filter and its aggregator hold no other error.
-/

namespace FilterQuery

open FilterQuery.Graph Grammar

namespace Lexeme

open Text (byteLength)

mutual

/-- What is in the lexeme is inside its token: the lexemes of a group, and the
nested query behind the name of a filter. -/
def Encloses : Lexeme → Prop
  | .group inner token => inner ≠ [] ∧ LiesIn token.position token.stop inner
  | .filter _ (some block) token => token.position < block.token.position ∧
      block.token.position < block.token.stop ∧ block.token.stop ≤ token.stop
  | _ => True

/-- The tokens of the lexemes lie in a range, one behind the other and none of
them empty. -/
def LiesIn (start stop : Nat) : List Lexeme → Prop
  | [] => start ≤ stop
  | l :: ls => start ≤ l.token.position ∧ l.token.position < l.token.stop ∧ l.Encloses ∧
      LiesIn l.token.stop stop ls

end

variable {start stop : Nat} {ls rs : List Lexeme}

/-- A range with lexemes in it does not end before it begins. -/
theorem LiesIn.le (h : LiesIn start stop ls) : start ≤ stop := by
  induction ls generalizing start with
  | nil => exact h
  | cons l ls ih =>
      obtain ⟨hstart, hnonempty, -, hrest⟩ := h
      have hle := ih hrest
      omega

/-- Lexemes in a range lie in every wider one. -/
theorem LiesIn.mono {start' stop' : Nat} (h : LiesIn start stop ls) (hstart : start' ≤ start)
    (hstop : stop ≤ stop') : LiesIn start' stop' ls := by
  induction ls generalizing start start' with
  | nil =>
      have hle : start ≤ stop := h
      change start' ≤ stop'
      omega
  | cons l ls ih =>
      obtain ⟨hl, hnonempty, hin, hrest⟩ := h
      exact ⟨by omega, hnonempty, hin, ih hrest (Nat.le_refl _)⟩

/-- A range with a lexeme in it is not empty. -/
theorem LiesIn.lt (h : LiesIn start stop ls) (hne : ls ≠ []) : start < stop := by
  cases ls with
  | nil => exact absurd rfl hne
  | cons l ls =>
      obtain ⟨hstart, hnonempty, -, hrest⟩ := h
      have hle := hrest.le
      omega

/-- Lexemes from the first one on. -/
theorem LiesIn.from_head {l : Lexeme} (h : LiesIn start stop (l :: ls)) :
    LiesIn l.token.position stop (l :: ls) := by
  obtain ⟨-, hnonempty, hin, hrest⟩ := h
  exact ⟨Nat.le_refl _, hnonempty, hin, hrest⟩

/-- The first lexeme lies between the start of the range and its own end. -/
theorem LiesIn.first {l : Lexeme} (h : LiesIn start stop (l :: ls)) :
    LiesIn start l.token.stop [l] := by
  obtain ⟨hstart, hnonempty, hin, -⟩ := h
  exact ⟨hstart, hnonempty, hin, Nat.le_refl _⟩

/-- Lexemes side by side: those on the left lie in front of where the last of
them ends, and those on the right behind it. -/
theorem LiesIn.split (hne : ls ≠ []) (h : LiesIn start stop (ls ++ rs)) :
    ∃ last, ls.getLast?.map (·.token.stop) = some last ∧ LiesIn start last ls ∧
      LiesIn last stop rs := by
  induction ls generalizing start with
  | nil => exact absurd rfl hne
  | cons l ls ih =>
      obtain ⟨hstart, hnonempty, hin, hrest⟩ := h
      by_cases hls : ls = []
      · subst hls
        exact ⟨l.token.stop, rfl, ⟨hstart, hnonempty, hin, Nat.le_refl _⟩, hrest⟩
      · obtain ⟨last, hlast, hleft, hright⟩ := ih hls hrest
        refine ⟨last, ?_, ⟨hstart, hnonempty, hin, hleft⟩, hright⟩
        obtain ⟨m, ms, rfl⟩ := List.exists_cons_of_ne_nil hls
        rw [List.getLast?_cons_cons]
        exact hlast

/-- A lexeme at any depth has a token in the range, and what is in it is inside
that. -/
theorem LiesIn.of_occurs {l : Lexeme} (h : LiesIn start stop ls) (hl : Occurs l ls) :
    start ≤ l.token.position ∧ l.token.position < l.token.stop ∧ l.token.stop ≤ stop ∧
      l.Encloses := by
  induction hl generalizing start stop with
  | here ls =>
      obtain ⟨hstart, hnonempty, hin, hrest⟩ := h
      exact ⟨hstart, hnonempty, hrest.le, hin⟩
  | later m hl ih =>
      obtain ⟨hstart, hnonempty, -, hrest⟩ := h
      obtain ⟨hposition, hlt, hstop, hin⟩ := ih hrest
      exact ⟨by omega, hlt, hstop, hin⟩
  | inside token ls hl ih =>
      obtain ⟨hstart, hnonempty, hin, hrest⟩ := h
      obtain ⟨hposition, hlt, hstop, hlin⟩ := ih hin.2
      have hle := hrest.le
      simp only [Lexeme.token] at hstart hle
      exact ⟨by omega, hlt, by omega, hlin⟩

mutual

/-- A lexeme that encloses what is in it has no empty group. -/
theorem Encloses.isFilled : ∀ {l : Lexeme}, l.Encloses → IsFilled l
  | .group _ _, h => ⟨h.1, h.2.allFilled⟩
  | .and _, _ | .or _, _ | .not _, _ | .nested _, _ | .filter _ _ _, _ | .toggle _ _, _
  | .comment _ _, _ | .word _ _, _ => trivial

/-- Lexemes that lie in a range have no empty groups. -/
theorem LiesIn.allFilled : ∀ {start stop : Nat} {ls : List Lexeme}, LiesIn start stop ls →
    AllFilled ls
  | _, _, [], _ => trivial
  | _, _, _ :: _, h => ⟨h.2.2.1.isFilled, h.2.2.2.allFilled⟩

end

variable {alphabet : List String} {position : Nat} {cs behind : List Char}

/-- The nested query of a filter is behind its name. -/
theorem filter?_encloses {kind : Token → Lexeme}
    (h : filter? alphabet position cs = .ok (some (kind, behind))) :
    (kind (tokenBefore position cs behind)).Encloses := by
  obtain ⟨c, tail, f, value, rest, rfl, hrest, hvalue, rfl⟩ := filter?_eq_found h
  cases hblock : value.block with
  | none => trivial
  | some block =>
      obtain ⟨htakes, htoken⟩ := block?_takes (block?_of_filterValue hvalue hblock)
      obtain ⟨piece, hne, rfl⟩ := htakes.exists_piece
      obtain ⟨front, rfl⟩ := hrest
      have hwhole : c :: (front ++ (piece ++ behind)) = (c :: front ++ piece) ++ behind := by simp
      have hpiece : 0 < byteLength piece :=
        Nat.lt_of_lt_of_le (List.length_pos_of_ne_nil hne) (Text.length_le_byteLength piece)
      have hc := c.utf8Size_pos
      rw [tokenBefore_append] at htoken
      rw [hwhole, tokenBefore_append]
      simp only [Encloses, htoken, Token.stop, Token.ofChars, byteLength, Text.byteLength_append,
        List.cons_append]
      omega

/-- What a rule finds encloses what is in it. -/
theorem Finds.encloses {l : Lexeme} (h : Finds alphabet position cs l behind) : l.Encloses := by
  cases h with
  | combinator h =>
      rcases combinator?_kind h with rfl | rfl | rfl
      · trivial
      · trivial
      · trivial
  | nested _ _ => trivial
  | filter _ _ h => exact filter?_encloses h
  | toggle _ _ _ h =>
      obtain ⟨name, rfl⟩ := toggle?_kind h
      trivial
  | comment _ _ _ _ h =>
      obtain ⟨text, rfl⟩ := comment?_kind h
      trivial
  | word _ _ _ _ _ h =>
      obtain ⟨w, rfl⟩ := word?_kind h
      trivial

/-- **Scanned lexemes lie in order.** -/
theorem Scans.liesIn (h : Scans alphabet position cs ls) :
    LiesIn position (position + byteLength cs) ls := by
  induction h with
  | nil position => exact Nat.le_refl _
  | @blank position c cs ls hc _ ih =>
      refine ih.mono (Nat.le_add_right _ _) ?_
      simp only [byteLength]
      omega
  | @group position inside behind inner ls _ _ _ ihinner ihrest =>
      have hsize := byteLength_group inside behind
      have hparentheses : byteLength ('(' :: inside ++ [')']) = byteLength inside + 2 := by
        have hopen : '('.utf8Size = 1 := rfl
        have hclose : ')'.utf8Size = 1 := rfl
        simp only [byteLength, List.cons_append, Text.byteLength_append, hopen, hclose]
        omega
      cases inner with
      | nil => exact ihrest.mono (Nat.le_add_right _ _) (by omega)
      | cons l inner =>
          have hinner : LiesIn position (position + byteLength ('(' :: inside ++ [')']))
              (l :: inner) := ihinner.mono (Nat.le_add_right _ _) (by omega)
          refine ⟨Nat.le_refl _, ?_, ⟨List.cons_ne_nil _ _, hinner⟩, ?_⟩
          · simp only [Lexeme.token, Token.stop, Token.ofChars]
            omega
          · exact ihrest.mono (Nat.le_refl _) (by omega)
  | @single position c cs behind l ls _ hfinds _ ih =>
      obtain ⟨piece, hne, hpiece, htoken⟩ := hfinds.exists_piece
      have hlength : 0 < byteLength piece :=
        Nat.lt_of_lt_of_le (List.length_pos_of_ne_nil hne) (Text.length_le_byteLength piece)
      have hposition : l.token.position = position := by rw [htoken]; rfl
      have hstop : l.token.stop = position + byteLength piece := by rw [htoken]; rfl
      refine ⟨by omega, by omega, hfinds.encloses, ih.mono (Nat.le_refl _) ?_⟩
      rw [hpiece, Text.byteLength_append]
      omega

/-- The lexemes of a text lie in it. -/
theorem liesIn_of_scan {text : String} (h : scan alphabet text = .ok ls) :
    LiesIn 0 (byteLength text.toList) ls := by
  have hlies := (scans_of_scan h).liesIn
  rwa [Nat.zero_add] at hlies

end Lexeme

namespace QueryError

/-- Where an error is: the offset of the text it is about, and the length of
it. -/
def place (e : QueryError) : Nat × Nat := (e.index, e.length)

/-- The offset behind the text that an error is about. -/
def stop (e : QueryError) : Nat := e.index + e.length

end QueryError

/-- Errors of a stretch of text.  Those about names are about text in it.  Those
that combinators may give are inside it, since there is text on both sides of a
combinator, and each is in front of any error about a name or behind it.  No two
of a sort are at one place. -/
structure Settled (start stop : Nat) (combinators names : List QueryError) : Prop where
  inside : ∀ e ∈ combinators, start ≤ e.index ∧ e.index < stop ∧ start < e.stop ∧ e.stop ≤ stop
  within : ∀ e ∈ names, start ≤ e.index ∧ e.index < e.stop ∧ e.stop ≤ stop
  combinatorPlaces : (combinators.map QueryError.place).Nodup
  namePlaces : (names.map QueryError.place).Nodup
  apart : ∀ e ∈ combinators, ∀ f ∈ names, f.stop ≤ e.index ∨ e.stop ≤ f.index

namespace Settled

variable {start stop : Nat} {combinators names : List QueryError}

/-- Where there are no errors they are in order. -/
theorem empty : Settled start stop [] [] where
  inside := List.forall_mem_nil _
  within := List.forall_mem_nil _
  combinatorPlaces := .nil
  namePlaces := .nil
  apart := List.forall_mem_nil _

/-- Errors of a stretch of text are errors of every wider one. -/
theorem widen {start' stop' : Nat} (h : Settled start stop combinators names)
    (hstart : start' ≤ start) (hstop : stop ≤ stop') : Settled start' stop' combinators names where
  inside e he := by
    have hinside := h.inside e he
    omega
  within e he := by
    have hwithin := h.within e he
    omega
  combinatorPlaces := h.combinatorPlaces
  namePlaces := h.namePlaces
  apart := h.apart

/-- Errors of two lists that have no place in common. -/
theorem nodup_append {es fs : List QueryError} (hes : (es.map QueryError.place).Nodup)
    (hfs : (fs.map QueryError.place).Nodup) (hne : ∀ e ∈ es, ∀ f ∈ fs, e.place ≠ f.place) :
    ((es ++ fs).map QueryError.place).Nodup := by
  rw [List.map_append, List.nodup_append']
  refine ⟨hes, hfs, fun p hp hp' => ?_⟩
  obtain ⟨e, he, rfl⟩ := List.mem_map.mp hp
  obtain ⟨f, hf, hef⟩ := List.mem_map.mp hp'
  exact hne e he f hf hef.symm

/-- Errors at different offsets are at different places. -/
theorem place_ne_of_index {e f : QueryError} (h : e.index ≠ f.index) : e.place ≠ f.place :=
  fun hef => h (Prod.mk.inj hef).1

/-- Errors that end at different offsets are at different places. -/
theorem place_ne_of_stop {e f : QueryError} (h : e.stop ≠ f.stop) : e.place ≠ f.place := by
  intro hef
  obtain ⟨hindex, hlength⟩ := Prod.mk.inj hef
  exact h (by rw [QueryError.stop, QueryError.stop, hindex, hlength])

/-- Two stretches, one behind the other. -/
theorem beside {middle start' : Nat} {combinators' names' : List QueryError}
    (left : Settled start middle combinators names)
    (right : Settled start' stop combinators' names') (hleft : start ≤ middle)
    (hmiddle : middle ≤ start') (hright : start' ≤ stop) :
    Settled start stop (combinators ++ combinators') (names ++ names') where
  inside := List.forall_mem_append.mpr
    ⟨(left.widen (Nat.le_refl _) (Nat.le_trans hmiddle hright)).inside,
      (right.widen (Nat.le_trans hleft hmiddle) (Nat.le_refl _)).inside⟩
  within := List.forall_mem_append.mpr
    ⟨(left.widen (Nat.le_refl _) (Nat.le_trans hmiddle hright)).within,
      (right.widen (Nat.le_trans hleft hmiddle) (Nat.le_refl _)).within⟩
  combinatorPlaces := by
    refine nodup_append left.combinatorPlaces right.combinatorPlaces fun e he f hf => ?_
    have hinside := left.inside e he
    have hinside' := right.inside f hf
    exact place_ne_of_index (by omega)
  namePlaces := by
    refine nodup_append left.namePlaces right.namePlaces fun e he f hf => ?_
    have hwithin := left.within e he
    have hwithin' := right.within f hf
    exact place_ne_of_index (by omega)
  apart := by
    refine List.forall_mem_append.mpr ⟨fun e he => ?_, fun e he => ?_⟩
    · refine List.forall_mem_append.mpr ⟨left.apart e he, fun f hf => ?_⟩
      have hinside := left.inside e he
      have hwithin := right.within f hf
      omega
    · refine List.forall_mem_append.mpr ⟨fun f hf => ?_, right.apart e he⟩
      have hinside := right.inside e he
      have hwithin := left.within f hf
      omega

/-- One more error of a combinator, at a place of its own. -/
theorem snoc {e : QueryError} (h : Settled start stop combinators names)
    (hinside : start ≤ e.index ∧ e.index < stop ∧ start < e.stop ∧ e.stop ≤ stop)
    (hplace : ∀ f ∈ combinators, f.place ≠ e.place)
    (hapart : ∀ f ∈ names, f.stop ≤ e.index ∨ e.stop ≤ f.index) :
    Settled start stop (combinators ++ [e]) names where
  inside := List.forall_mem_append.mpr ⟨h.inside, List.forall_mem_singleton.mpr hinside⟩
  within := h.within
  combinatorPlaces := by
    refine nodup_append h.combinatorPlaces (List.nodup_singleton _) fun f hf => ?_
    exact List.forall_mem_singleton.mpr (hplace f hf)
  namePlaces := h.namePlaces
  apart := List.forall_mem_append.mpr ⟨h.apart, List.forall_mem_singleton.mpr hapart⟩

/-- **Two stretches with a combinator between them.** -/
theorem pair {middle start' : Nat} {combinators' names' : List QueryError} {e : QueryError}
    (left : Settled start middle combinators names)
    (right : Settled start' stop combinators' names') (hleft : start < middle)
    (hright : start' < stop) (hindex : middle ≤ e.index) (hstop : e.stop ≤ start') :
    Settled start stop (combinators ++ combinators' ++ [e]) (names ++ names') := by
  have hle : e.index ≤ e.stop := Nat.le_add_right _ _
  have hboth := left.beside right (by omega) (by omega) (by omega)
  refine hboth.snoc (by omega) ?_ ?_
  · refine List.forall_mem_append.mpr ⟨fun f hf => ?_, fun f hf => ?_⟩
    · have hinside := left.inside f hf
      exact place_ne_of_index (by omega)
    · have hinside := right.inside f hf
      exact place_ne_of_stop (by omega)
  · refine List.forall_mem_append.mpr ⟨fun f hf => ?_, fun f hf => ?_⟩
    · have hwithin := left.within f hf
      omega
    · have hwithin := right.within f hf
      omega

/-- One error about a name, at a token. -/
theorem single {token : Token} (cause : Cause) (hstart : start ≤ token.position)
    (hnonempty : token.position < token.stop) (hstop : token.stop ≤ stop) :
    Settled start stop [] [QueryError.about cause token] where
  inside := List.forall_mem_nil _
  within := List.forall_mem_singleton.mpr ⟨hstart, hnonempty, hstop⟩
  combinatorPlaces := .nil
  namePlaces := List.nodup_singleton _
  apart := List.forall_mem_nil _

/-- Errors about names, and others that are behind where each of them begins. -/
theorem append {start' : Nat} {es fs : List QueryError} (h : Settled start stop [] es)
    (h' : Settled start' stop [] fs) (hstart : start ≤ start')
    (hindex : ∀ e ∈ es, e.index < start') : Settled start stop [] (es ++ fs) where
  inside := List.forall_mem_nil _
  within := List.forall_mem_append.mpr ⟨h.within, (h'.widen hstart (Nat.le_refl _)).within⟩
  combinatorPlaces := .nil
  namePlaces := by
    refine nodup_append h.namePlaces h'.namePlaces fun e he f hf => ?_
    have hbehind := hindex e he
    have hwithin := h'.within f hf
    exact place_ne_of_index (by omega)
  apart := List.forall_mem_nil _

end Settled

namespace Graph

mutual

/-- The errors that the combinators of two in a tree can give, each behind those
of the combinators below it. -/
def mixtures : Tree Content → List QueryError
  | .node c ts => mixturesOf ts ++
    if c.kind.isBinaryCombinator then [QueryError.about .mixedOperations c.token] else []

def mixturesOf : List (Tree Content) → List QueryError
  | [] => []
  | t :: ts => mixtures t ++ mixturesOf ts

end

/-- The errors in a list of trees are those in its members. -/
theorem mixturesOf_eq (ts : List (Tree Content)) : mixturesOf ts = ts.flatMap mixtures := by
  induction ts with
  | nil => rfl
  | cons t ts ih => rw [mixturesOf, ih, List.flatMap_cons]

/-- A combinator of two may give its error behind those below it. -/
theorem mixtures_node (c : Content) (ts : List (Tree Content)) :
    mixtures (.node c ts) = ts.flatMap mixtures ++
      if c.kind.isBinaryCombinator then [QueryError.about .mixedOperations c.token] else [] := by
  rw [mixtures, mixturesOf_eq]

/-- A node with one operand gives no error of its own. -/
theorem mixtures_one {c : Content} {t : Tree Content} (h : c.kind.isBinaryCombinator = false) :
    mixtures (.node c [t]) = mixtures t := by
  simp [mixtures_node, h]

/-- A combinator gives the errors of its two operands first. -/
theorem mixtures_two {c : Content} {t u : Tree Content} (h : c.kind.isBinaryCombinator = true) :
    mixtures (.node c [t, u]) =
      mixtures t ++ mixtures u ++ [QueryError.about .mixedOperations c.token] := by
  simp [mixtures_node, h]

/-- A leaf gives no error. -/
theorem mixtures_leaf {c : Content} (h : c.kind.isBinaryCombinator = false) :
    mixtures (.leaf c) = [] := by
  simp [Tree.leaf, mixtures_node, h]

/-- A nested query gives no error. -/
theorem mixtures_block (block : NestedBlock) (filter : Option String) :
    mixtures (block.tree filter) = [] := by
  rw [NestedBlock.tree]
  cases block.aggregator with
  | none => exact mixtures_leaf rfl
  | some name => exact (mixtures_one rfl).trans (mixtures_leaf rfl)

/-- Only combinators of two become operations on sets. -/
theorem isBinaryCombinator_of_setOperation {kind operation : NodeKind}
    (h : setOperation? kind = some operation) : kind.isBinaryCombinator = true := by
  unfold setOperation? at h
  split at h
  · rfl
  · rfl
  · cases h

/-- Promoting a node notes one error at most, and that at a combinator. -/
theorem promoteNode_notes (c : Content) (ts : List (Tree Content)) :
    (promoteNode c ts).notes.Sublist
      (if c.kind.isBinaryCombinator then [QueryError.about .mixedOperations c.token] else []) := by
  unfold promoteNode
  split
  · exact List.nil_sublist _
  · next operation hoperation =>
      rw [if_pos (isBinaryCombinator_of_setOperation hoperation)]
      split
      · exact List.nil_sublist _
      · split
        · exact List.Sublist.refl _
        · exact List.nil_sublist _

/-- Promotion gives some of the errors that combinators can give. -/
theorem promote_notes (t : Tree Content) : (promote t).notes.Sublist (mixtures t) := by
  induction t with
  | node c ts ih =>
      rw [(promote_node c ts).2, mixtures_node]
      have hoperation := promoteNode_notes c (ts.map fun t => (promote t).value)
      exact (List.Sublist.flatMap_right ts ih).append hoperation

/-- Leaving out what is pruned adds no error. -/
theorem mixtures_retain {c : Content} {ts : List (Tree Content)} {v : Tree Content}
    (h : retain c ts = some v) : (mixtures v).Sublist (mixtures (.node c ts)) := by
  unfold retain at h
  split at h
  · split at h
    · cases h
    · obtain rfl := Option.some.inj h
      exact List.Sublist.refl _
  · next only =>
      split at h
      · obtain rfl := Option.some.inj h
        rw [mixtures_node, List.flatMap_cons, List.flatMap_nil, List.append_nil]
        exact List.sublist_append_left _ _
      · obtain rfl := Option.some.inj h
        exact List.Sublist.refl _
  · obtain rfl := Option.some.inj h
    exact List.Sublist.refl _

/-- What pruning leaves of the trees below a node. -/
theorem mixtures_filterMap {us : List (Tree Place)}
    (h : ∀ u ∈ us, ∀ v, prune u = some v →
      (mixtures v).Sublist (mixtures (u.map Place.content))) :
    ((us.filterMap prune).flatMap mixtures).Sublist
      ((us.map (Tree.map Place.content)).flatMap mixtures) := by
  induction us with
  | nil => exact List.Sublist.refl _
  | cons u us ih =>
      have hrest := ih fun u hu => h u (List.mem_cons_of_mem _ hu)
      rw [List.filterMap_cons, List.map_cons, List.flatMap_cons]
      cases hu : prune u with
      | none => exact hrest.trans (List.sublist_append_right _ _)
      | some w => exact (h u List.mem_cons_self w hu).append hrest

/-- What is left of parentheses, comments and toggles is what is left of their
body, if anything. -/
theorem sublist_of_not_retained {p : Place} {us : List (Tree Place)} {v : Tree Content}
    (hkind : ¬ IsRetained p.kind) (h : prune (.node p us) = some v) :
    [v].Sublist (us.filterMap prune) := by
  rw [prune] at h
  split at h
  · cases h
  · split at h
    · cases us with
      | nil => cases h
      | cons u us =>
          rw [List.filterMap_cons_some (show prune u = some v from h)]
          exact (List.nil_sublist _).cons_cons v
    · cases h
    · cases h
    · next hgroup hcomment htoggle =>
        refine absurd ?_ hkind
        cases hp : p.kind <;> simp_all [IsRetained]

/-- The combinators that pruning leaves were there before. -/
theorem mixtures_prune {u : Tree Place} {v : Tree Content} (h : prune u = some v) :
    (mixtures v).Sublist (mixtures (u.map Place.content)) := by
  induction u generalizing v with
  | node p us ih =>
      have hbelow := mixtures_filterMap fun u hu v => ih u hu (v := v)
      rw [Tree.map_node]
      by_cases hkind : IsRetained p.kind
      · cases hskipped : p.node.skipped with
        | true =>
            rw [prune, if_pos hskipped] at h
            cases h
        | false =>
            rw [prune_node hskipped hkind] at h
            refine (mixtures_retain h).trans ?_
            rw [mixtures_node, mixtures_node]
            exact hbelow.append_right _
      · have hleft := (sublist_of_not_retained hkind h).flatMap mixtures
        rw [List.flatMap_singleton] at hleft
        rw [mixtures_node]
        exact (hleft.trans hbelow).trans (List.sublist_append_left _ _)

end Graph

namespace Lexeme

variable {start stop : Nat} {ls rs : List Lexeme} {known : Knowledge} {text : String}

/-- What is wrong with a filter is about its own token. -/
theorem filterFaults_settled {f : FilterExpression} {nested : Bool} {token : Token}
    (hstart : start ≤ token.position) (hnonempty : token.position < token.stop)
    (hstop : token.stop ≤ stop) :
    Settled start stop [] (known.filterFaults f nested token) := by
  rw [Knowledge.filterFaults]
  cases (known.judge f nested).cause with
  | none => exact .empty
  | some cause => exact .single cause hstart hnonempty hstop

/-- What is wrong with an aggregator is about its own block. -/
theorem aggregatorFaults_settled {block : NestedBlock} (hstart : start ≤ block.token.position)
    (hnonempty : block.token.position < block.token.stop) (hstop : block.token.stop ≤ stop) :
    Settled start stop [] (known.aggregatorFaults block) := by
  rw [Knowledge.aggregatorFaults]
  cases block.aggregator with
  | none => exact .empty
  | some name =>
      by_cases hknown : known.hasAggregator name = true
      · simpa [hknown] using Settled.empty
      · simpa [hknown] using Settled.single (.unknownAggregator name) hstart hnonempty hstop

/-- The lexemes lie on the two sides of a token. -/
def LieAround (start stop : Nat) (ls rs : List Lexeme) (token : Token) : Prop :=
  ∃ last first, LiesIn start last ls ∧ LiesIn first stop rs ∧ last ≤ token.position ∧
    token.stop ≤ first

/-- The lexemes on the two sides of another one. -/
theorem LiesIn.around {l : Lexeme} (hls : ls ≠ []) (h : LiesIn start stop (ls ++ l :: rs)) :
    LieAround start stop ls rs l.token := by
  obtain ⟨last, -, hleft, hposition, -, -, hright⟩ := h.split hls
  exact ⟨last, l.token.stop, hleft, hright, hposition, Nat.le_refl _⟩

/-- The lexemes on the two sides of the gap between them. -/
theorem LiesIn.around_gap (hls : ls ≠ []) (hrs : rs ≠ []) (h : LiesIn start stop (ls ++ rs)) :
    LieAround start stop ls rs (gap text ls rs) := by
  obtain ⟨last, hlast, hleft, hright⟩ := h.split hls
  obtain ⟨r, rs, rfl⟩ := List.exists_cons_of_ne_nil hrs
  have hposition : last ≤ r.token.position := hright.1
  have hgap : gap text ls (r :: rs) = Token.ofRange text last r.token.position := by
    rw [gap, hlast]
    rfl
  refine ⟨last, r.token.position, hleft, hright.from_head, ?_, ?_⟩
  · rw [hgap]
    exact Nat.le_refl _
  · rw [hgap]
    exact Nat.le_of_eq (Nat.add_sub_cancel' hposition)

/-- Wherever the lexemes lie, the errors about their names and those that the
combinators of their tree can give are in order. -/
def Settles (known : Knowledge) (ls : List Lexeme) (t : Tree Content) : Prop :=
  ∀ start stop, LiesIn start stop ls → Settled start stop (mixtures t) (known.faultsOf ls)

/-- The sides of a combinator of two. -/
theorem Settles.pair {c : Content} {t u : Tree Content} (hkind : c.kind.isBinaryCombinator = true)
    (left : Settles known ls t) (right : Settles known rs u) (hls : ls ≠ []) (hrs : rs ≠ [])
    (h : LieAround start stop ls rs c.token) :
    Settled start stop (mixtures (.node c [t, u])) (known.faultsOf ls ++ known.faultsOf rs) := by
  obtain ⟨last, first, hleft, hright, hposition, hstop⟩ := h
  rw [mixtures_two hkind]
  exact (left _ _ hleft).pair (right _ _ hright) (hleft.lt hls) (hright.lt hrs) hposition hstop

/-- An operand that is no group. -/
theorem settled_operand {l : Lexeme} {t : Tree Content} (hl : Operand text l t)
    (hsingle : ∀ inner token, l ≠ .group inner token) (h : LiesIn start stop [l]) :
    Settled start stop (mixtures t) (known.faults l) := by
  obtain ⟨hstart, hnonempty, hencloses, hstop⟩ := h
  cases hl with
  | word s token =>
      rw [mixtures_leaf rfl]
      exact .empty
  | toggle name token =>
      rw [mixtures_leaf rfl]
      exact .empty
  | comment content token =>
      rw [mixtures_leaf rfl]
      exact .empty
  | filter f token =>
      rw [mixtures_leaf rfl]
      exact filterFaults_settled hstart hnonempty hstop
  | nested block =>
      rw [mixtures_block, Knowledge.faults]
      split
      · exact aggregatorFaults_settled hstart hnonempty hstop
      · exact .single _ hstart hnonempty hstop
  | nestedFilter f block token =>
      obtain ⟨hbehind, hblock, hinside⟩ := hencloses
      have hend : block.token.stop ≤ stop := Nat.le_trans hinside hstop
      rw [mixtures_one rfl, mixtures_block, Knowledge.faults]
      split
      · refine (filterFaults_settled hstart hnonempty hstop).append
          (aggregatorFaults_settled (Nat.le_refl _) hblock hend) ?_ fun e he => ?_
        · exact Nat.le_trans hstart (Nat.le_of_lt hbehind)
        · obtain ⟨cause, -, rfl⟩ := List.mem_map.mp he
          exact hbehind
      · exact .single _ hstart hnonempty hstop
  | group token body => exact absurd rfl (hsingle _ token)

mutual

/-- **Errors of a derivation are in order.** -/
theorem disjunction_settles : ∀ {ls t}, Disjunction text ls t → Settles known ls t
  | _, _, .single h => conjunction_settles h
  | _, _, .or token left right => by
      intro start stop h
      rw [Knowledge.faultsOf_append, Knowledge.faultsOf, Knowledge.faults, List.nil_append]
      exact (disjunction_settles left).pair rfl (conjunction_settles right) left.ne_nil right.ne_nil
        (h.around left.ne_nil)

/-- Errors of a conjunction are in order. -/
theorem conjunction_settles : ∀ {ls t}, Conjunction text ls t → Settles known ls t
  | _, _, .single h => negation_settles h
  | _, _, .written token left right => by
      intro start stop h
      rw [Knowledge.faultsOf_append, Knowledge.faultsOf, Knowledge.faults, List.nil_append]
      exact (conjunction_settles left).pair rfl (negation_settles right) left.ne_nil right.ne_nil
        (h.around left.ne_nil)
  | _, _, .omitted left right => by
      intro start stop h
      rw [Knowledge.faultsOf_append]
      exact (conjunction_settles left).pair rfl (negation_settles right) left.ne_nil right.ne_nil
        (h.around_gap left.ne_nil right.ne_nil)

/-- Errors of a negation are in order. -/
theorem negation_settles : ∀ {ls t}, Negation text ls t → Settles known ls t
  | _, _, .operand h => by
      intro start stop hlies
      rw [Knowledge.faultsOf, Knowledge.faultsOf, List.append_nil]
      exact operand_settled h hlies
  | _, _, .not token h => by
      intro start stop hlies
      obtain ⟨hstart, hnonempty, -, hrest⟩ := hlies
      rw [mixtures_one rfl, Knowledge.faultsOf, Knowledge.faults, List.nil_append]
      exact (negation_settles h _ _ hrest).widen (by omega) (Nat.le_refl _)

/-- Errors of an operand are in order. -/
theorem operand_settled : ∀ {l t}, Operand text l t → ∀ {start stop}, LiesIn start stop [l] →
    Settled start stop (mixtures t) (known.faults l)
  | _, _, .group token body, _, _, h => by
      obtain ⟨hstart, -, ⟨-, hinner⟩, hstop⟩ := h
      rw [mixtures_one rfl, Knowledge.faults]
      exact (disjunction_settles body _ _ hinner).widen hstart hstop
  | _, _, hl@(.word _ _), _, _, h => settled_operand hl (by simp) h
  | _, _, hl@(.filter _ _), _, _, h => settled_operand hl (by simp) h
  | _, _, hl@(.nestedFilter _ _ _), _, _, h => settled_operand hl (by simp) h
  | _, _, hl@(.nested _), _, _, h => settled_operand hl (by simp) h
  | _, _, hl@(.toggle _ _), _, _, h => settled_operand hl (by simp) h
  | _, _, hl@(.comment _ _), _, _, h => settled_operand hl (by simp) h

end

end Lexeme

namespace Draft

variable {known : Knowledge} {text : String} {ls : List Lexeme}

/-- The errors of a draft without a fatal one are about names, and the notes on
the way to evaluation are some of those that combinators can give. -/
theorem settled_of_no_fatal {stop : Nat} (hlies : Lexeme.LiesIn 0 stop ls)
    (hclean : ∀ e ∈ (ofLexemes known text ls).errors, e.isFatal = false) :
    ∃ combinators, Settled 0 stop combinators (ofLexemes known text ls).errors ∧
      (ofLexemes known text ls).evaluation.notes.Sublist combinators := by
  have hsyntactic : Clean (ofLexemes known text ls).errors := by
    intro e he hkind
    have hfatal := hclean e he
    rw [QueryError.isFatal, hkind] at hfatal
    cases hfatal
  rcases derivable_of_clean hlies.allFilled hsyntactic with rfl | ⟨t, ht⟩
  · have hnone : (ofLexemes known text []).graph.tree?.bind prune = none := by
      rw [tree?, ofLexemes_nil.1]
      rfl
    refine ⟨[], ?_, ?_⟩
    · rw [ofLexemes_nil.2]
      exact Settled.empty.widen (Nat.le_refl _) (Nat.zero_le _)
    · rcases evaluation_of_clean hclean with ⟨-, heq⟩ | ⟨v, hv, -⟩
      · rw [heq]
        exact List.Sublist.refl _
      · rw [hnone] at hv
        cases hv
  · obtain ⟨u, hu, hcontent, -, herrors⟩ := derived_tree known ht
    refine ⟨mixtures t, ?_, ?_⟩
    · rw [herrors]
      exact Lexeme.disjunction_settles ht 0 stop hlies
    · rcases evaluation_of_clean hclean with ⟨-, heq⟩ | ⟨v, hv, -, heq⟩
      · rw [heq]
        exact List.nil_sublist _
      · rw [hu, Option.bind_some] at hv
        rw [heq, ← hcontent]
        exact (promote_notes v).trans (mixtures_prune hv)

/-- **No two errors are at one place**, where none is fatal. -/
theorem places_nodup {stop : Nat} (hlies : Lexeme.LiesIn 0 stop ls)
    (hclean : ∀ e ∈ (ofLexemes known text ls).errors, e.isFatal = false) :
    (((ofLexemes known text ls).errors ++ (ofLexemes known text ls).evaluation.notes).map
      QueryError.place).Nodup := by
  obtain ⟨combinators, hsettled, hnotes⟩ := settled_of_no_fatal hlies hclean
  refine Settled.nodup_append hsettled.namePlaces ?_ fun e he f hf hef => ?_
  · exact hsettled.combinatorPlaces.sublist (hnotes.map _)
  · have hwithin := hsettled.within e he
    have hapart := hsettled.apart f (hnotes.subset hf) e he
    obtain ⟨hindex, hlength⟩ := Prod.mk.inj hef
    simp only [QueryError.stop] at hwithin hapart
    omega

end Draft

end FilterQuery
