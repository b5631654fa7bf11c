import FilterQuery.Proofs.Equivalence
import FilterQuery.Proofs.Legibility

/-!
# Renderings

A rendering shows a tree as an expression of the names of its kinds.  What the
nodes say can be read back of it, but for what evaluation does not look at and
the filters that nested queries belong to; and these follow from where the
nested queries stand.  So trees with the same rendering have the same gist.
-/

namespace FilterQuery

open Lexeme (IsLegibleFilter IsLegibleHead valueChars)

/-- A kind that says nothing but its name. -/
def NodeKind.isBare : NodeKind → Bool
  | .and | .or | .not | .select | .union | .intersection | .group => true
  | _ => false

/-- Two kinds that differ at most in what they say behind their name. -/
inductive NodeKind.SameName : NodeKind → NodeKind → Prop where
  | bare {kind : NodeKind} (h : kind.isBare = true) : SameName kind kind
  | filter (f g : FilterExpression) : SameName (.filter f) (.filter g)
  | nestedFilter (f g : FilterExpression) : SameName (.nestedFilter f) (.nestedFilter g)
  | search (word word' : SearchExpression) : SameName (.search word) (.search word')
  | nestedQuery (q q' : NestedExpression) : SameName (.nestedQuery q) (.nestedQuery q')
  | aggregator (name name' : String) : SameName (.aggregator name) (.aggregator name')
  | comment (text text' : String) : SameName (.comment text) (.comment text')
  | toggle (name name' : String) : SameName (.toggle name) (.toggle name')

/-- **No two sorts of kinds share a name.** -/
theorem NodeKind.sameName_of_name {kind kind' : NodeKind} (h : kind.name = kind'.name) :
    SameName kind kind' := by
  cases kind <;> cases kind' <;> first
    | (simp [name] at h; done)
    | exact .bare rfl
    | constructor

/-- What the kind says can be read back of its rendering. -/
def NodeKind.IsLegible (alphabet : List String) : NodeKind → Prop
  | .filter f => IsLegibleFilter alphabet f
  | .nestedFilter f => IsLegibleHead f ∧ ' ' ∉ f.operator.toList
  | .nestedQuery q => IsEnclosed q.query.toList
  | .aggregator name => ' ' ∉ name.toList
  | .comment _ | .toggle _ => False
  | _ => True

/-- The filter that nested queries below a node belong to, given that of the
node. -/
def NodeKind.owner (owner : Option String) : NodeKind → Option String
  | .nestedFilter f => some f.name
  | _ => owner

/-- A bare kind hands its owner down to what is below it. -/
theorem NodeKind.owner_of_isBare {kind : NodeKind} (h : kind.isBare = true)
    (owner : Option String) : kind.owner owner = owner := by
  cases kind <;> cases h <;> rfl

namespace Graph

/-- All kinds of the tree are legible, and its nested queries know which filter
they belong to. -/
inductive IsLegible (alphabet : List String) : Option String → Tree NodeKind → Prop where
  | node {owner : Option String} {kind : NodeKind} {ts : List (Tree NodeKind)}
      (legible : kind.IsLegible alphabet)
      (owned : ∀ q, kind = .nestedQuery q → q.filter = owner)
      (arity : ts.length = kind.arity)
      (below : ∀ t ∈ ts, IsLegible alphabet (kind.owner owner) t) :
      IsLegible alphabet owner (.node kind ts)

/-- The characters of a tree's rendering. -/
def chars (t : Tree NodeKind) : List Char := (renderTree t).toList

/-- What stands behind the name of a kind, given the characters of the trees
below. -/
def inside : NodeKind → List (List Char) → List Char
  | .filter f, _ => '(' :: ((filterHead f).toList ++ (valueChars f ++ [')']))
  | .nestedFilter f, texts => '(' :: ((filterHead f).toList ++ (texts.flatMap (' ' :: ·) ++ [')']))
  | .search word, _ =>
    '(' :: ((if word.exact then ['!'] else []) ++ ((Text.quoted word.text).toList ++ [')']))
  | .nestedQuery q, _ => '\x7b' :: (q.query.toList ++ ['\x7d'])
  | .aggregator name, texts => '(' :: (name.toList ++ (texts.flatMap (' ' :: ·) ++ [')']))
  | .comment text, _ => '(' :: ((Text.quoted text).toList ++ [')'])
  | .toggle name, _ => '(' :: '+' :: (name.toList ++ [')'])
  | _, texts => '(' :: ([',', ' '].intercalate texts ++ [')'])

/-- Trees in a row are rendered one by one. -/
theorem renderAll_eq_map (ts : List (Tree NodeKind)) : renderAll ts = ts.map renderTree := by
  induction ts with
  | nil => rfl
  | cons t ts ih => rw [renderAll, ih, List.map_cons]

/-- The characters of texts with a blank in front of each. -/
theorem toList_join_blank (ts : List (Tree NodeKind)) :
    (String.join ((renderAll ts).map (" " ++ ·))).toList = (ts.map chars).flatMap (' ' :: ·) := by
  rw [String.toList_join, renderAll_eq_map, List.map_map, List.flatMap_map, List.flatMap_map]
  refine List.flatMap_congr fun t _ => ?_
  simp [chars]

/-- The characters of texts with commas between them. -/
theorem toList_intercalate_comma (ts : List (Tree NodeKind)) :
    (", ".intercalate (renderAll ts)).toList = [',', ' '].intercalate (ts.map chars) := by
  have hchars : (ts.map renderTree).map String.toList = ts.map chars := List.map_map
  simp [renderAll_eq_map, hchars]

/-- A bare kind is rendered as its name with what is below it in parentheses. -/
theorem renderTree_of_isBare {kind : NodeKind} (h : kind.isBare = true)
    (ts : List (Tree NodeKind)) :
    renderTree (.node kind ts) = kind.name ++ "(" ++ ", ".intercalate (renderAll ts) ++ ")" := by
  cases kind <;> cases h <;> rfl

/-- What is inside a bare kind stands between parentheses. -/
theorem inside_of_isBare {kind : NodeKind} (h : kind.isBare = true) (texts : List (List Char)) :
    inside kind texts = '(' :: ([',', ' '].intercalate texts ++ [')']) := by
  cases kind <;> cases h <;> rfl

/-- **A node is rendered as the name of its kind and what stands behind it.** -/
theorem chars_node (kind : NodeKind) (ts : List (Tree NodeKind)) :
    chars (.node kind ts) = kind.name.toList ++ inside kind (ts.map chars) := by
  by_cases hbare : kind.isBare = true
  · have hintercalate := toList_intercalate_comma ts
    rw [chars, renderTree_of_isBare hbare, inside_of_isBare hbare]
    simp [hintercalate]
  have hjoin := toList_join_blank ts
  cases kind with
  | filter f =>
      have htext : chars (.node (.filter f) ts) = ("Filter(" ++ filterHead f ++
        (if f.quoted then Text.quoted f.value else f.value) ++ ")").toList := rfl
      simp [htext, NodeKind.name, inside, valueChars]
  | nestedFilter f =>
      have htext : chars (.node (.nestedFilter f) ts) = ("FilterWithNestedQuery(" ++ filterHead f ++
        String.join ((renderAll ts).map (" " ++ ·)) ++ ")").toList := rfl
      simp [htext, NodeKind.name, inside, hjoin]
  | search word =>
      have htext : chars (.node (.search word) ts) = ("Search(" ++
        (if word.exact then "!" else "") ++ Text.quoted word.text ++ ")").toList := rfl
      cases hexact : word.exact <;> simp [htext, NodeKind.name, inside, hexact]
  | aggregator name =>
      have htext : chars (.node (.aggregator name) ts) = ("Aggregator(" ++ name ++
        String.join ((renderAll ts).map (" " ++ ·)) ++ ")").toList := rfl
      simp [htext, NodeKind.name, inside, hjoin]
  | nestedQuery q =>
      have htext : chars (.node (.nestedQuery q) ts) =
        ("NestedQuery\x7b" ++ q.query ++ "\x7d").toList := rfl
      simp [htext, NodeKind.name, inside]
  | comment text =>
      have htext : chars (.node (.comment text) ts) =
        ("Comment(" ++ Text.quoted text ++ ")").toList := rfl
      simp [htext, NodeKind.name, inside]
  | toggle name =>
      have htext : chars (.node (.toggle name) ts) = ("Toggle(+" ++ name ++ ")").toList := rfl
      simp [htext, NodeKind.name, inside]
  | _ => exact absurd rfl hbare

/-- Behind the name of a kind follows no letter, so that the name ends there. -/
theorem stops_inside (kind : NodeKind) (texts : List (List Char)) (rest : List Char) :
    Stops Char.isAlpha (inside kind texts ++ rest) := by
  cases kind <;> exact stops_cons (by decide) _

/-- The name of a kind is a word. -/
theorem isAlpha_name (kind : NodeKind) : ∀ c ∈ kind.name.toList, c.isAlpha = true := by
  cases kind <;>
    rw [NodeKind.name] <;>
    exact List.all_eq_true.mp (by decide)

variable {alphabet : List String} {owner : Option String} {rest rest' : List Char}
  {t u : Tree NodeKind} {ts us : List (Tree NodeKind)}

/-- **The rendering of a node begins with the name of its kind**, and no other
name fits. -/
theorem name_unique {kind kind' : NodeKind}
    (h : chars (.node kind ts) ++ rest = chars (.node kind' us) ++ rest') :
    kind.name = kind'.name ∧
      inside kind (ts.map chars) ++ rest = inside kind' (us.map chars) ++ rest' := by
  rw [chars_node, chars_node, List.append_assoc, List.append_assoc] at h
  obtain ⟨hname, hinside⟩ := (stops_inside _ _ _).word_unique (stops_inside _ _ _)
    (isAlpha_name kind) (isAlpha_name kind') h
  exact ⟨String.toList_inj.mp hname, hinside⟩

/-- The tree is known by its rendering, whatever comes behind that. -/
def IsKnown (alphabet : List String) (owner : Option String) (t : Tree NodeKind) : Prop :=
  ∀ u rest rest', IsLegible alphabet owner u → chars t ++ rest = chars u ++ rest' →
    t.map NodeKind.gist = u.map NodeKind.gist ∧ rest = rest'

/-- Trees with commas between them are known if each is. -/
theorem row_unique (hknown : ∀ t ∈ ts, IsKnown alphabet owner t)
    (hus : ∀ u ∈ us, IsLegible alphabet owner u) (hlength : ts.length = us.length)
    (h : [',', ' '].intercalate (ts.map chars) ++ rest =
      [',', ' '].intercalate (us.map chars) ++ rest') :
    ts.map (Tree.map NodeKind.gist) = us.map (Tree.map NodeKind.gist) ∧ rest = rest' := by
  induction ts generalizing us with
  | nil =>
      obtain rfl := List.length_eq_zero_iff.mp hlength.symm
      exact ⟨rfl, h⟩
  | cons t ts ih =>
      obtain ⟨u, us, rfl⟩ := List.exists_cons_of_length_eq_add_one hlength.symm
      have ht := hknown t List.mem_cons_self
      have hu := hus u List.mem_cons_self
      cases ts with
      | nil =>
          obtain rfl : us = [] := by simpa using hlength.symm
          obtain ⟨hgist, hrest⟩ := ht u rest rest' hu (by simpa using h)
          exact ⟨by simp [hgist], hrest⟩
      | cons t' ts =>
          obtain ⟨u', us, rfl⟩ : ∃ u' us', us = u' :: us' :=
            List.exists_cons_of_length_eq_add_one (by simpa using hlength.symm)
          simp only [List.map_cons, List.intercalate_cons_cons, List.append_assoc] at h
          obtain ⟨hgist, hmore⟩ := ht u _ _ hu h
          have hboth := ih (fun t ht => hknown t (List.mem_cons_of_mem _ ht))
            (fun u hu => hus u (List.mem_cons_of_mem _ hu)) (by simpa using hlength)
            (by simpa using hmore)
          rw [List.map_cons, hboth.1, hgist]
          exact ⟨rfl, hboth.2⟩

/-- A word without a blank is read back in front of one tree, and the tree
behind it. -/
theorem word_only_unique {word word' : String} (hword : ' ' ∉ word.toList)
    (hword' : ' ' ∉ word'.toList) (hknown : ∀ t ∈ ts, IsKnown alphabet owner t)
    (hbelow : ∀ u ∈ us, IsLegible alphabet owner u) (hts : ts.length = 1) (hus : us.length = 1)
    (h : word.toList ++ ((ts.map chars).flatMap (' ' :: ·) ++ rest) =
      word'.toList ++ ((us.map chars).flatMap (' ' :: ·) ++ rest')) :
    word = word' ∧ ts.map (Tree.map NodeKind.gist) = us.map (Tree.map NodeKind.gist) ∧
      rest = rest' := by
  obtain ⟨t, rfl⟩ := List.length_eq_one_iff.mp hts
  obtain ⟨u, rfl⟩ := List.length_eq_one_iff.mp hus
  have hplain : ∀ {word : String}, ' ' ∉ word.toList →
      ∀ c ∈ word.toList, decide (c ≠ ' ') = true := by
    intro word hword c hc
    refine decide_eq_true fun hblank => hword ?_
    rwa [← hblank]
  have htext : word.toList ++ ' ' :: (chars t ++ rest) =
      word'.toList ++ ' ' :: (chars u ++ rest') := by
    simpa using h
  have hblank : decide (' ' ≠ ' ') = false := by decide
  obtain ⟨hequal, hmore⟩ := word_before_unique hblank (hplain hword) (hplain hword') htext
  exact ⟨String.toList_inj.mp hequal, row_unique hknown hbelow rfl (by simpa using hmore)⟩

/-- The mark of an exact word is no quote. -/
theorem search_unique {word word' : SearchExpression}
    (h : (if word.exact then ['!'] else []) ++ ((Text.quoted word.text).toList ++ ')' :: rest) =
      (if word'.exact then ['!'] else []) ++ ((Text.quoted word'.text).toList ++ ')' :: rest')) :
    word.exact = word'.exact ∧ word.text = word'.text ∧ rest = rest' := by
  have hsame : word.exact = word'.exact := by
    have hhead := congrArg List.head? h
    cases hexact : word.exact <;> cases hexact' : word'.exact <;>
      simp [hexact, hexact', Text.toList_quoted] at hhead ⊢
  rw [hsame] at h
  obtain ⟨htext, hrest⟩ := Text.quoted_unique (List.append_cancel_left h)
  exact ⟨hsame, htext, (List.cons.inj hrest).2⟩

section Node

variable {kind kind' : NodeKind}
  (hknown : ∀ t ∈ ts, IsKnown alphabet (kind.owner owner) t)
  (hlegible : kind.IsLegible alphabet) (hlegible' : kind'.IsLegible alphabet)
  (howned : ∀ q, kind = .nestedQuery q → q.filter = owner)
  (howned' : ∀ q, kind' = .nestedQuery q → q.filter = owner)
  (hts : ts.length = kind.arity) (hus : us.length = kind'.arity)
  (hbelow : ∀ u ∈ us, IsLegible alphabet (kind'.owner owner) u)
  (hname : kind.name = kind'.name)
  (h : inside kind (ts.map chars) ++ rest = inside kind' (us.map chars) ++ rest')
include hknown hlegible hlegible' howned howned' hts hus hbelow hname h

/-- **What stands behind the name of a kind is read back.** -/
theorem inside_unique :
    kind.gist = kind'.gist ∧
      ts.map (Tree.map NodeKind.gist) = us.map (Tree.map NodeKind.gist) ∧ rest = rest' := by
  cases NodeKind.sameName_of_name hname with
  | bare hbare =>
      rw [inside_of_isBare hbare, inside_of_isBare hbare, List.cons_append, List.cons_append,
        List.append_assoc, List.append_assoc, List.cons.injEq] at h
      rw [NodeKind.owner_of_isBare hbare] at hknown hbelow
      obtain ⟨hrow, hrest⟩ := row_unique hknown hbelow (hts.trans hus.symm) h.2
      exact ⟨rfl, hrow, (List.cons.inj hrest).2⟩
  | filter f g =>
      obtain rfl := List.length_eq_zero_iff.mp hts
      obtain rfl := List.length_eq_zero_iff.mp hus
      have htext : (filterHead f).toList ++ (valueChars f ++ ')' :: rest) =
          (filterHead g).toList ++ (valueChars g ++ ')' :: rest') := by
        simpa [inside] using h
      obtain ⟨rfl, hrest⟩ := IsLegibleFilter.unique hlegible hlegible' htext
      exact ⟨rfl, rfl, hrest⟩
  | nestedFilter f g =>
      obtain ⟨hhead, hblank⟩ := hlegible
      obtain ⟨hhead', hblank'⟩ := hlegible'
      have htext : (filterHead f).toList ++ ((ts.map chars).flatMap (' ' :: ·) ++ ')' :: rest) =
          (filterHead g).toList ++ ((us.map chars).flatMap (' ' :: ·) ++ ')' :: rest') := by
        simpa [inside] using h
      obtain ⟨hfilter, hparam, hmore⟩ := hhead.unique hhead' htext
      -- The trees below belong to filters of the same name.
      have howner : NodeKind.owner owner (.nestedFilter f) =
          NodeKind.owner owner (.nestedFilter g) := congrArg some hfilter
      rw [howner] at hknown
      obtain ⟨hoperator, hgist, hrest⟩ :=
        word_only_unique hblank hblank' hknown hbelow hts hus hmore
      refine ⟨?_, hgist, (List.cons.inj hrest).2⟩
      rw [NodeKind.gist, NodeKind.gist, hfilter, hparam, hoperator]
  | search word word' =>
      obtain rfl := List.length_eq_zero_iff.mp hts
      obtain rfl := List.length_eq_zero_iff.mp hus
      have htext : (if word.exact then ['!'] else []) ++
          ((Text.quoted word.text).toList ++ ')' :: rest) =
            (if word'.exact then ['!'] else []) ++
              ((Text.quoted word'.text).toList ++ ')' :: rest') := by
        simpa [inside] using h
      obtain ⟨hexact, hwords, hrest⟩ := search_unique htext
      exact ⟨by rw [NodeKind.gist, NodeKind.gist, hexact, hwords], rfl, hrest⟩
  | nestedQuery q q' =>
      obtain rfl := List.length_eq_zero_iff.mp hts
      obtain rfl := List.length_eq_zero_iff.mp hus
      have htext : q.query.toList ++ '\x7d' :: rest = q'.query.toList ++ '\x7d' :: rest' := by
        simpa [inside] using h
      obtain ⟨hquery, hrest⟩ := IsEnclosed.unique hlegible hlegible' htext
      have hfilter : q.filter = q'.filter := (howned q rfl).trans (howned' q' rfl).symm
      have hq : q = q' := congrArg₂ NestedExpression.mk (String.toList_inj.mp hquery) hfilter
      exact ⟨by rw [hq], rfl, hrest⟩
  | aggregator name name' =>
      have htext : name.toList ++ ((ts.map chars).flatMap (' ' :: ·) ++ ')' :: rest) =
          name'.toList ++ ((us.map chars).flatMap (' ' :: ·) ++ ')' :: rest') := by
        simpa [inside] using h
      obtain ⟨rfl, hgist, hrest⟩ :=
        word_only_unique hlegible hlegible' hknown hbelow hts hus htext
      exact ⟨rfl, hgist, (List.cons.inj hrest).2⟩
  | comment text text' => exact absurd hlegible id
  | toggle name name' => exact absurd hlegible id

end Node

/-- **A legible tree is known by its rendering.** -/
theorem IsLegible.isKnown (h : IsLegible alphabet owner t) : IsKnown alphabet owner t := by
  induction h with
  | @node owner kind ts legible owned arity _ ih =>
      rintro _ rest rest' ⟨legible', owned', arity', below'⟩ heq
      obtain ⟨hname, hinside⟩ := name_unique heq
      obtain ⟨hkind, hbelow, hrest⟩ := inside_unique ih legible legible' owned owned' arity arity'
        below' hname hinside
      rw [Tree.map_node, Tree.map_node, hkind, hbelow]
      exact ⟨rfl, hrest⟩

/-- **Legible trees with the same rendering have the same gist.** -/
theorem IsLegible.gist_unique (ht : IsLegible alphabet owner t) (hu : IsLegible alphabet owner u)
    (h : renderTree t = renderTree u) : t.map NodeKind.gist = u.map NodeKind.gist :=
  (ht.isKnown u [] [] hu (by rw [chars, chars, h])).1

end Graph

end FilterQuery
