import FilterQuery.Aggregator
import FilterQuery.Proofs.CoherentRelations

/-!
# The greatest and the least element

The aggregators `max` and `min` go through the elements once, with the best one
so far in hand, and give its place to an element whose key is strictly ahead.
Not all keys can be compared: a number is neither before nor behind a text.
Integers, decimals, booleans and texts fall into three kinds with one order
each, and so the first key there is decides which kind counts; of the elements
with a key of that kind, the first of the best ones is chosen.

A key that can be compared with no other one is passed over, but only behind
another key.  The first element with a key is taken whatever that key is, and no
element that cannot be compared with it gets past it any more.
-/

namespace FilterQuery

namespace Text

/-- One text is at most the other in the order of its encoding. -/
theorem compareChars_isLE {as bs : List Char} :
    (compareChars as bs).isLE = true ↔ encoded as ≤ encoded bs := by
  rw [Ordering.isLE_iff_ne_gt, compareChars_swap, Ordering.swap_eq_gt, compareChars_eq_lt]
  exact List.not_lt

instance : Std.TransCmp compareChars where
  eq_swap := compareChars_swap _ _
  isLE_trans hab hbc := by
    rw [compareChars_isLE] at hab hbc ⊢
    exact List.le_trans hab hbc

end Text

/-- Whatever is not ahead of something overtaken is behind what has overtaken
it. -/
theorem behind_of_overtaken {β : Type*} {cmp : β → β → Ordering} [Std.TransCmp cmp] {a b c : β}
    {wanted : Ordering} (hwanted : wanted ≠ .eq) (hab : cmp a b = wanted) (hcb : cmp c b ≠ wanted) :
    cmp c a = wanted.swap := by
  have hswap : ∀ x y, cmp x y = (cmp y x).swap := fun _ _ => Std.OrientedCmp.eq_swap
  cases wanted with
  | eq => exact absurd rfl hwanted
  | lt =>
      have hbc : (cmp b c).isLE = true := by
        rw [Ordering.isLE_iff_ne_gt, hswap, Ordering.swap_eq_gt]
        exact hcb
      rw [hswap, Std.TransCmp.lt_of_lt_of_isLE hab hbc]
  | gt =>
      have hba : cmp b a = .lt := by
        rw [hswap, hab]
        rfl
      exact Std.TransCmp.lt_of_isLE_of_lt (Ordering.isLE_iff_ne_gt.mpr hcb) hba

/-- What a key has to show in the order of its kind. -/
inductive Rank where
  | number (q : ℚ)
  | truth (b : Bool)
  | text (cs : List Char)

namespace Rank

/-- The order of two ranks of one kind. -/
def compare? : Rank → Rank → Option Ordering
  | number p, number q => some (compare p q)
  | truth p, truth q => some (compare p q)
  | text as, text bs => some (Text.compareChars as bs)
  | _, _ => none

variable {p q r : Rank} {wanted : Ordering}

/-- A rank is equal to itself. -/
theorem compare?_self (p : Rank) : p.compare? p = some .eq := by
  cases p with
  | number q => exact congrArg some Std.ReflCmp.compare_self
  | truth b => exact congrArg some Std.ReflCmp.compare_self
  | text cs => exact congrArg some Std.ReflCmp.compare_self

/-- Ranks that are comparable with the same rank are comparable. -/
theorem compare?_trans_isSome (hpq : (p.compare? q).isSome) (hqr : (q.compare? r).isSome) :
    (p.compare? r).isSome := by
  cases p <;> cases q <;> cases hpq <;> cases r <;> cases hqr <;> rfl

/-- What is ahead of a rank that another one is not ahead of is ahead of that
one: the order is total among the comparable. -/
theorem compare?_behind (hwanted : wanted ≠ .eq) (hpq : p.compare? q = some wanted)
    (hrq : r.compare? q ≠ some wanted) (hrp : (r.compare? p).isSome) :
    r.compare? p = some wanted.swap := by
  cases p <;> cases q <;> cases hpq <;> cases r <;> cases hrp
  all_goals
    refine congrArg some (behind_of_overtaken hwanted rfl fun h => hrq ?_)
    exact congrArg some h

end Rank

/-- What is in order about a value, if it is of one of the kinds that are. -/
def Value.rank? : Value → Option Rank
  | integer n => some (.number n.toInt)
  | decimal d => some (.number d.number)
  | boolean b => some (.truth b)
  | string s => some (.text s.toList)
  | float _ | custom _ => none

/-- A number, boolean or text has a rank. -/
theorem Value.exists_rank {k : Value}
    (h : k.valueType ∈ [.integer, .decimal, .boolean, .string]) : ∃ p, k.rank? = some p := by
  cases k with
  | float x => exact absurd h (by simp [valueType])
  | custom v => exact absurd h (by simp [valueType])
  | _ => exact ⟨_, rfl⟩

namespace Aggregator

section Keys

variable {a b c : Value} {p q : Rank} {wanted : Ordering}

/-- **Keys of one kind are in the order of their ranks**, and keys of two kinds
in none. -/
theorem compareKeys?_of_rank (ha : a.rank? = some p) (hb : b.rank? = some q) :
    compareKeys? a b = p.compare? q := by
  have hinteger : ∀ m n : ℤ, compare m n = compare (m : ℚ) n := fun m n => by
    rw [← cmp_eq_compare, ← cmp_eq_compare]
    exact (Int.cast_strictMono.cmp_map_eq m n).symm
  cases a <;> cases b <;> cases ha <;> cases hb
  case integer.integer.refl.refl m n => exact congrArg some (hinteger m.toInt n.toInt)
  case integer.decimal.refl.refl n d =>
    exact congrArg some ((Decimal.compare_eq _ _).trans (by rw [Decimal.number_ofInt]))
  case decimal.integer.refl.refl d n =>
    exact congrArg some ((Decimal.compare_eq _ _).trans (by rw [Decimal.number_ofInt]))
  case decimal.decimal.refl.refl d e => exact congrArg some (Decimal.compare_eq d e)
  all_goals rfl

/-- Keys stand in the opposite order the other way round, whatever they are. -/
theorem compareKeys?_swap (a b : Value) :
    compareKeys? b a = (compareKeys? a b).map Ordering.swap := by
  have hnumbers := Value.compareNumbers?_swap a b
  cases a with
  | string s =>
      cases b with
      | string t => exact congrArg some (Text.compareChars_swap _ _)
      | _ => exact hnumbers
  | boolean s =>
      cases b with
      | boolean t => exact congrArg some Std.OrientedCmp.eq_swap
      | _ => exact hnumbers
  | _ => cases b <;> exact hnumbers

/-- A key of a rank is equal to itself. -/
theorem compareKeys?_self (ha : a.rank? = some p) : compareKeys? a a = some .eq := by
  rw [compareKeys?_of_rank ha ha, Rank.compare?_self]

/-- A key of a rank is not ahead of itself. -/
theorem compareKeys?_self_ne (ha : a.rank? = some p) (hwanted : wanted ≠ .eq) :
    compareKeys? a a ≠ some wanted := by
  rw [compareKeys?_self ha]
  exact fun heq => hwanted (Option.some.inj heq).symm

/-- Keys that can be compared with the same one can be compared with each
other. -/
theorem compareKeys?_trans_ne_none {r : Rank} (ha : a.rank? = some p) (hb : b.rank? = some q)
    (hc : c.rank? = some r) (hab : compareKeys? a b ≠ none) (hbc : compareKeys? b c ≠ none) :
    compareKeys? a c ≠ none := by
  rw [← Option.isSome_iff_ne_none] at hab hbc ⊢
  rw [compareKeys?_of_rank ha hb] at hab
  rw [compareKeys?_of_rank hb hc] at hbc
  rw [compareKeys?_of_rank ha hc]
  exact Rank.compare?_trans_isSome hab hbc

/-- **A key ahead of the best one has behind it whatever the best one was not
behind.** -/
theorem compareKeys?_behind {r : Rank} (ha : a.rank? = some p) (hb : b.rank? = some q)
    (hc : c.rank? = some r) (hwanted : wanted ≠ .eq) (hab : compareKeys? a b = some wanted)
    (hcb : compareKeys? c b ≠ some wanted) (hca : compareKeys? c a ≠ none) :
    compareKeys? c a = some wanted.swap := by
  rw [compareKeys?_of_rank ha hb] at hab
  rw [compareKeys?_of_rank hc hb] at hcb
  rw [compareKeys?_of_rank hc ha] at hca ⊢
  exact Rank.compare?_behind hwanted hab hcb (Option.isSome_iff_ne_none.mpr hca)

end Keys

section Runs

variable {α : Type} {key : α → Option Value} {wanted : Ordering}

/-- What one more element does: it leaves the best one in its place, being
without a key or not ahead of it, or it takes that place. -/
theorem improve_cases (key : α → Option Value) (wanted : Ordering) (best : Option (Value × α))
    (e : α) :
    (improve key wanted best e = best ∧ (best = none → key e = none) ∧
        ∀ k held, key e = some k → best = some held → compareKeys? k held.1 ≠ some wanted) ∨
      ∃ k, key e = some k ∧ improve key wanted best e = some (k, e) ∧
        ∀ held, best = some held → compareKeys? k held.1 = some wanted := by
  unfold improve
  cases hk : key e with
  | none => exact .inl ⟨rfl, fun _ => rfl, fun k held hk' => by cases hk'⟩
  | some k =>
      cases best with
      | none => exact .inr ⟨k, rfl, rfl, fun held hheld => by cases hheld⟩
      | some held =>
          dsimp only
          split
          · next hahead =>
              refine .inr ⟨k, rfl, rfl, fun held' hheld => ?_⟩
              obtain rfl := Option.some.inj hheld
              exact hahead
          · next hnot =>
              refine .inl ⟨rfl, (absurd · (Option.some_ne_none held)), fun k' held' hk' hheld => ?_⟩
              obtain rfl := Option.some.inj hk'
              obtain rfl := Option.some.inj hheld
              exact hnot

/-- Keys are integers, decimals, booleans and texts, in any mixture; an element
may have none. -/
def HasOrderedKeys (key : α → Option Value) (items : List α) : Prop :=
  ∀ e ∈ items, ∀ k, key e = some k → k.valueType ∈ [.integer, .decimal, .boolean, .string]

/-- Ordered keys have ranks. -/
theorem HasOrderedKeys.exists_rank {items : List α} (h : HasOrderedKeys key items) {e : α}
    (he : e ∈ items) {k : Value} (hk : key e = some k) : ∃ p, k.rank? = some p :=
  Value.exists_rank (h e he k hk)

/-- The element `r` with the key `k` stands between others as the first of the
best ones. -/
structure IsFirstBest (key : α → Option Value) (wanted : Ordering) (front : List α) (r : α)
    (back : List α) (k : Value) : Prop where
  hasKey : key r = some k
  /-- No element is ahead of it. -/
  unbeaten : ∀ e ∈ front ++ r :: back, ∀ k', key e = some k' → compareKeys? k' k ≠ some wanted
  /-- Of those in front of it, all that can be compared with it are behind
  it. -/
  first : ∀ e ∈ front, ∀ k', key e = some k' → compareKeys? k' k ≠ none →
    compareKeys? k' k = some wanted.swap
  /-- The first key of all is one that it can be compared with. -/
  kindred : ∀ k₀, (front ++ r :: back).findSome? key = some k₀ → compareKeys? k k₀ ≠ none

namespace IsFirstBest

variable {front back seen : List α} {r e : α} {k k' : Value}

/-- The first key of all is among those seen. -/
theorem findSome?_append (h : IsFirstBest key wanted front r back k) (items : List α) :
    (front ++ r :: back ++ items).findSome? key = (front ++ r :: back).findSome? key := by
  have hsome : ((front ++ r :: back).findSome? key).isSome := by
    rw [List.findSome?_isSome_iff]
    exact ⟨r, by simp, by rw [h.hasKey]; rfl⟩
  obtain ⟨k₀, hk₀⟩ := Option.isSome_iff_exists.mp hsome
  rw [List.findSome?_append, hk₀, Option.some_or]

/-- One more element that is not ahead changes nothing. -/
theorem extend (h : IsFirstBest key wanted front r back k)
    (he : ∀ k', key e = some k' → compareKeys? k' k ≠ some wanted) :
    IsFirstBest key wanted front r (back ++ [e]) k := by
  have hseen : front ++ r :: (back ++ [e]) = front ++ r :: back ++ [e] := by simp
  refine ⟨h.hasKey, ?_, h.first, ?_⟩
  · rw [hseen]
    exact List.forall_mem_append.mpr ⟨h.unbeaten, List.forall_mem_singleton.mpr he⟩
  · rw [hseen, h.findSome?_append]
    exact h.kindred

/-- The first element with a key is the best one so far. -/
theorem of_only (hseen : ∀ e ∈ seen, key e = none) (hkeys : HasOrderedKeys key (seen ++ [e]))
    (hwanted : wanted ≠ .eq) (he : key e = some k) : IsFirstBest key wanted seen e [] k := by
  obtain ⟨p, hp⟩ := hkeys.exists_rank (List.mem_append_right _ (List.mem_singleton_self e)) he
  have hkeyless : ∀ e' ∈ seen, ∀ k', key e' ≠ some k' := fun e' he' k' hk' =>
    Option.some_ne_none k' (hk'.symm.trans (hseen e' he'))
  refine ⟨he, List.forall_mem_append.mpr ⟨?_, List.forall_mem_singleton.mpr ?_⟩, ?_, ?_⟩
  · exact fun e' he' k' hk' => absurd hk' (hkeyless e' he' k')
  · intro k' hk'
    obtain rfl := Option.some.inj (he.symm.trans hk')
    exact compareKeys?_self_ne hp hwanted
  · exact fun e' he' k' hk' => absurd hk' (hkeyless e' he' k')
  · intro k₀ hk₀
    rw [List.findSome?_append, List.findSome?_eq_none_iff.mpr hseen, Option.none_or,
      List.findSome?_singleton, he] at hk₀
    obtain rfl := Option.some.inj hk₀
    rw [compareKeys?_self hp]
    exact Option.some_ne_none _

/-- An element that is ahead of the best one so far is the best one from then
on. -/
theorem overtaken (h : IsFirstBest key wanted front r back k)
    (hkeys : HasOrderedKeys key (front ++ r :: back ++ [e])) (hwanted : wanted ≠ .eq)
    (he : key e = some k') (hahead : compareKeys? k' k = some wanted) :
    IsFirstBest key wanted (front ++ r :: back) e [] k' := by
  have hrank : ∀ {e' k''}, e' ∈ front ++ r :: back → key e' = some k'' →
      ∃ p, k''.rank? = some p :=
    fun he' hk'' => hkeys.exists_rank (List.mem_append_left _ he') hk''
  obtain ⟨p, hp⟩ := hkeys.exists_rank (List.mem_append_right _ (List.mem_singleton_self e)) he
  obtain ⟨q, hq⟩ := hrank (by simp) h.hasKey
  have hbehind : ∀ e' ∈ front ++ r :: back, ∀ k'', key e' = some k'' →
      compareKeys? k'' k' ≠ none → compareKeys? k'' k' = some wanted.swap := by
    intro e' he' k'' hk'' hcomparable
    obtain ⟨s, hs⟩ := hrank he' hk''
    exact compareKeys?_behind hp hq hs hwanted hahead (h.unbeaten e' he' k'' hk'') hcomparable
  refine ⟨he, List.forall_mem_append.mpr ⟨?_, List.forall_mem_singleton.mpr ?_⟩, hbehind, ?_⟩
  · intro e' he' k'' hk'' heq
    have hback := hbehind e' he' k'' hk'' (by rw [heq]; exact Option.some_ne_none _)
    exact hwanted (Ordering.eq_eq_of_eq_swap (Option.some.inj (heq.symm.trans hback)))
  · intro k'' hk''
    obtain rfl := Option.some.inj (he.symm.trans hk'')
    exact compareKeys?_self_ne hp hwanted
  · intro k₀ hk₀
    rw [h.findSome?_append] at hk₀
    obtain ⟨e₀, he₀, hkey₀⟩ := List.exists_of_findSome?_eq_some hk₀
    obtain ⟨s, hs⟩ := hrank he₀ hkey₀
    have hcomparable : compareKeys? k' k ≠ none := by
      rw [hahead]
      exact Option.some_ne_none _
    exact compareKeys?_trans_ne_none hp hq hs hcomparable (h.kindred k₀ hk₀)

end IsFirstBest

/-- What is in hand when some elements have been seen. -/
inductive HoldsBest (key : α → Option Value) (wanted : Ordering) :
    List α → Option (Value × α) → Prop where
  | nothing {seen : List α} (h : ∀ e ∈ seen, key e = none) : HoldsBest key wanted seen none
  | best {front back : List α} {r : α} {k : Value} (h : IsFirstBest key wanted front r back k) :
      HoldsBest key wanted (front ++ r :: back) (some (k, r))

namespace HoldsBest

variable {seen : List α} {best : Option (Value × α)}

/-- One more element. -/
theorem step (h : HoldsBest key wanted seen best) (hwanted : wanted ≠ .eq) {e : α}
    (hkeys : HasOrderedKeys key (seen ++ [e])) :
    HoldsBest key wanted (seen ++ [e]) (improve key wanted best e) := by
  rcases improve_cases key wanted best e with ⟨hsame, habsent, hnot⟩ | ⟨k, hk, hnew, hahead⟩
  · rw [hsame]
    cases h with
    | nothing hseen =>
        exact .nothing (List.forall_mem_append.mpr
          ⟨hseen, List.forall_mem_singleton.mpr (habsent rfl)⟩)
    | best hbest =>
        rw [List.append_assoc, List.cons_append]
        exact .best (hbest.extend fun k hk => hnot k _ hk rfl)
  · rw [hnew]
    cases h with
    | nothing hseen => exact .best (.of_only hseen hkeys hwanted hk)
    | best hbest => exact .best (hbest.overtaken hkeys hwanted hk (hahead _ rfl))

/-- **All the elements.** -/
theorem run (h : HoldsBest key wanted seen best) (hwanted : wanted ≠ .eq) {items : List α}
    (hkeys : HasOrderedKeys key (seen ++ items)) :
    HoldsBest key wanted (seen ++ items) (items.foldl (improve key wanted) best) := by
  induction items generalizing seen best with
  | nil => rwa [List.append_nil]
  | cons e items ih =>
      rw [List.append_cons] at hkeys ⊢
      exact ih (h.step hwanted fun e' he' => hkeys e' (List.mem_append_left _ he')) hkeys

end HoldsBest

/-- The aggregator folds the elements to the best one so far. -/
theorem reduce_extremum (key : α → Option Value) (wanted : Ordering) (items : List α) :
    (extremum key wanted).reduce items =
      ((items.foldl (improve key wanted) none).map Prod.snd).toList := rfl

/-- Of the elements, the first of the best ones is chosen, if any has a key. -/
structure ChoosesFirstBest (key : α → Option Value) (wanted : Ordering)
    (items chosen : List α) : Prop where
  eq_nil : chosen = [] ↔ ∀ e ∈ items, key e = none
  eq_singleton : chosen ≠ [] → ∃ front r back k, items = front ++ r :: back ∧ chosen = [r] ∧
    IsFirstBest key wanted front r back k

/-- **The aggregator chooses the first best element.** -/
theorem extremum_choosesFirstBest {items : List α} (hkeys : HasOrderedKeys key items)
    (hwanted : wanted ≠ .eq) :
    ChoosesFirstBest key wanted items ((extremum key wanted).reduce items) := by
  have hstart : HoldsBest key wanted [] none := .nothing (by simp)
  have hrun : HoldsBest key wanted items (items.foldl (improve key wanted) none) :=
    hstart.run hwanted hkeys
  rw [reduce_extremum]
  generalize items.foldl (improve key wanted) none = best at hrun
  cases hrun with
  | nothing hnone => exact ⟨iff_of_true rfl hnone, fun h => absurd rfl h⟩
  | @best front back r k hbest =>
      refine ⟨iff_of_false (List.cons_ne_nil _ _) fun hnone => ?_,
        fun _ => ⟨front, r, back, k, rfl, rfl, hbest⟩⟩
      have habsent := hnone r (by simp)
      rw [hbest.hasKey] at habsent
      cases habsent

/-- **`max` and `min` choose the first of the best elements.**  Nothing is
chosen exactly if no element has a key.  Otherwise it is one element: no key is
greater (less) than its own, all comparable keys in front of it are strictly
less (greater), and its key is of the kind of the first key there is. -/
theorem extremes_are_first_best (key : α → Option Value) (items : List α)
    (hkeys : HasOrderedKeys key items) :
    ChoosesFirstBest key .gt items ((max key).reduce items) ∧
      ChoosesFirstBest key .lt items ((min key).reduce items) :=
  ⟨extremum_choosesFirstBest hkeys Ordering.noConfusion,
    extremum_choosesFirstBest hkeys Ordering.noConfusion⟩

/-- Numbers as elements, with keys of several kinds or with none. -/
def mixedKey : ℕ → Option Value
  | 1 => some (.integer 3)
  | 2 => some (.string "z")
  | 3 => some (.decimal ⟨false, 30, 1⟩)
  | 4 => some (.integer 1)
  | 5 => some (.float .nan)
  | _ => none

/-- Of the equal keys 3 and 3.0 the first is the greatest, and the text does not
count. -/
theorem extremes_of_mixed_keys :
    HasOrderedKeys mixedKey [0, 1, 2, 3, 4] ∧ ChoosesFirstBest mixedKey .gt [0, 1, 2, 3, 4] [1] ∧
      ChoosesFirstBest mixedKey .lt [0, 1, 2, 3, 4] [4] := by
  have hkeys : HasOrderedKeys mixedKey [0, 1, 2, 3, 4] := by
    intro e he k hk
    have hkinds : ∀ e ∈ [0, 1, 2, 3, 4],
        (mixedKey e).all (·.valueType ∈ [.integer, .decimal, .boolean, .string]) = true := by
      decide
    simpa [hk] using hkinds e he
  obtain ⟨hmax, hmin⟩ := extremes_are_first_best mixedKey _ hkeys
  have hgreatest : (max mixedKey).reduce [0, 1, 2, 3, 4] = [1] := by decide +kernel
  have hleast : (min mixedKey).reduce [0, 1, 2, 3, 4] = [4] := by decide +kernel
  exact ⟨hkeys, hgreatest ▸ hmax, hleast ▸ hmin⟩

section Unrelated

variable {front back : List α} {x : α}

/-- The key of an element can be compared with none of the keys of others. -/
def IsUnrelated (key : α → Option Value) (x : α) (others : List α) : Prop :=
  ∀ k, key x = some k → ∀ e ∈ others, ∀ k', key e = some k' → compareKeys? k k' = none

/-- Elements whose keys cannot be compared with the best one do not get past
it. -/
theorem foldl_improve_of_unrelated {items : List α} {k : Value} {r : α}
    (h : ∀ e ∈ items, ∀ k', key e = some k' → compareKeys? k' k = none) :
    items.foldl (improve key wanted) (some (k, r)) = some (k, r) := by
  induction items with
  | nil => rfl
  | cons e items ih =>
      obtain ⟨he, hitems⟩ := List.forall_mem_cons.mp h
      rw [List.foldl_cons]
      rcases improve_cases key wanted (some (k, r)) e with ⟨hsame, -⟩ | ⟨k', hk', -, hahead⟩
      · rw [hsame]
        exact ih hitems
      · exact absurd ((he k' hk').symm.trans (hahead _ rfl)) (Option.some_ne_none _).symm

/-- The best element is one of those seen, with its key; there is none only if
none has a key. -/
theorem foldl_improve_cases (key : α → Option Value) (wanted : Ordering) (items : List α) :
    (items.foldl (improve key wanted) none = none ∧ ∀ e ∈ items, key e = none) ∨
      ∃ r ∈ items, ∃ k, key r = some k ∧
        items.foldl (improve key wanted) none = some (k, r) := by
  induction items using List.reverseRecOn with
  | nil => exact .inl ⟨rfl, by simp⟩
  | append_singleton items e ih =>
      rw [List.foldl_append, List.foldl_cons, List.foldl_nil]
      rcases improve_cases key wanted (items.foldl (improve key wanted) none) e with
        ⟨hsame, habsent, -⟩ | ⟨k, hk, hnew, -⟩
      · rw [hsame]
        rcases ih with ⟨hnone, hitems⟩ | ⟨r, hr, k, hk, hbest⟩
        · exact .inl ⟨hnone, List.forall_mem_append.mpr
            ⟨hitems, List.forall_mem_singleton.mpr (habsent hnone)⟩⟩
        · exact .inr ⟨r, List.mem_append_left _ hr, k, hk, hbest⟩
      · exact .inr ⟨e, List.mem_append_right _ (List.mem_singleton_self e), k, hk, hnew⟩

/-- **Behind another key an unrelated one is passed over.** -/
theorem foldl_improve_passes (hx : IsUnrelated key x (front ++ back))
    (hlater : key x = none ∨ ∃ e ∈ front, key e ≠ none) :
    (front ++ x :: back).foldl (improve key wanted) none =
      (front ++ back).foldl (improve key wanted) none := by
  rw [List.foldl_append, List.foldl_cons, List.foldl_append]
  rcases improve_cases key wanted (front.foldl (improve key wanted) none) x with
    ⟨hsame, -⟩ | ⟨k, hk, -, hahead⟩
  · rw [hsame]
  · obtain ⟨e, he, hkey⟩ := hlater.resolve_left (by rw [hk]; exact Option.some_ne_none k)
    rcases foldl_improve_cases key wanted front with ⟨-, habsent⟩ | ⟨r, hr, k', hk', hbest⟩
    · exact absurd (habsent e he) hkey
    · have hunrelated := hx k hk r (List.mem_append_left _ hr) k' hk'
      exact absurd (hunrelated.symm.trans (hahead _ hbest)) (Option.some_ne_none _).symm

/-- **In front of all other keys an unrelated one is taken**, and nothing gets
past it. -/
theorem foldl_improve_takes (hx : IsUnrelated key x (front ++ back)) (hkey : key x ≠ none)
    (hfirst : ∀ e ∈ front, key e = none) :
    ∃ k, (front ++ x :: back).foldl (improve key wanted) none = some (k, x) := by
  rw [List.foldl_append, List.foldl_cons]
  rcases foldl_improve_cases key wanted front with ⟨hnone, -⟩ | ⟨r, hr, k, hk, -⟩
  · rcases improve_cases key wanted none x with ⟨-, habsent, -⟩ | ⟨k, hk, hnew, -⟩
    · exact absurd (habsent rfl) hkey
    · rw [hnone, hnew]
      refine ⟨k, foldl_improve_of_unrelated fun e he k' hk' => ?_⟩
      rw [compareKeys?_swap, hx k hk e (List.mem_append_right _ he) k' hk', Option.map_none]
  · rw [hfirst r hr] at hk
    cases hk

/-- **A key that can be compared with no other one counts only if it comes
first.**  Behind another key, as well as without a key, the element makes no
difference to `max` and `min`, wherever it stands; with a key and in front of
all others that have one, it is itself what they choose. -/
theorem unrelated_key_counts_only_in_front (key : α → Option Value) (front back : List α) (x : α)
    (hx : IsUnrelated key x (front ++ back)) {a : Aggregator α} (ha : a = max key ∨ a = min key) :
    ((key x = none ∨ ∃ e ∈ front, key e ≠ none) →
        a.reduce (front ++ x :: back) = a.reduce (front ++ back)) ∧
      (key x ≠ none → (∀ e ∈ front, key e = none) → a.reduce (front ++ x :: back) = [x]) := by
  obtain ⟨wanted, rfl⟩ : ∃ wanted, a = extremum key wanted := by
    rcases ha with rfl | rfl
    · exact ⟨.gt, rfl⟩
    · exact ⟨.lt, rfl⟩
  refine ⟨fun hlater => ?_, fun hkey hfirst => ?_⟩
  · rw [reduce_extremum, reduce_extremum, foldl_improve_passes hx hlater]
  · obtain ⟨k, hbest⟩ := foldl_improve_takes hx hkey hfirst
    rw [reduce_extremum, hbest]
    rfl

/-- Not-a-number can be compared with no integer: behind one it is passed over,
in front of them all it is chosen. -/
theorem not_a_number_among_integers :
    IsUnrelated mixedKey 5 ([1] ++ [4]) ∧
      (max mixedKey).reduce ([1] ++ 5 :: [4]) = (max mixedKey).reduce ([1] ++ [4]) ∧
      IsUnrelated mixedKey 5 ([] ++ [1, 4]) ∧
      (min mixedKey).reduce ([] ++ 5 :: [1, 4]) = [5] := by
  have hunrelated : IsUnrelated mixedKey 5 [1, 4] := by
    simp only [IsUnrelated, mixedKey, Option.some.injEq, forall_eq', List.forall_mem_cons,
      List.not_mem_nil, false_imp_iff, implies_true, and_true]
    exact ⟨by decide +kernel, by decide +kernel⟩
  refine ⟨hunrelated, ?_, hunrelated, ?_⟩
  · exact (unrelated_key_counts_only_in_front mixedKey [1] [4] 5 hunrelated (.inl rfl)).1
      (.inr ⟨1, List.mem_singleton_self 1, Option.some_ne_none _⟩)
  · exact (unrelated_key_counts_only_in_front mixedKey [] [1, 4] 5 hunrelated (.inr rfl)).2
      (Option.some_ne_none _) (by simp)

/-- **A text in front of an integer hides it.**  The text can be compared with
no other key and is chosen for all that, by `max` as well as by `min`; without
it the integer is. -/
theorem text_in_front_of_an_integer :
    IsUnrelated mixedKey 2 ([] ++ [1]) ∧ mixedKey 1 ≠ none ∧
      (max mixedKey).reduce ([] ++ 2 :: [1]) = [2] ∧ (max mixedKey).reduce ([] ++ [1]) = [1] ∧
      (min mixedKey).reduce ([] ++ 2 :: [1]) = [2] ∧ (min mixedKey).reduce ([] ++ [1]) = [1] := by
  have hunrelated : IsUnrelated mixedKey 2 [1] := by
    simp only [IsUnrelated, mixedKey, Option.some.injEq, forall_eq', List.forall_mem_singleton]
    rfl
  exact ⟨hunrelated, Option.some_ne_none _, by decide +kernel, by decide +kernel,
    by decide +kernel, by decide +kernel⟩

end Unrelated

end Runs

end Aggregator

end FilterQuery
