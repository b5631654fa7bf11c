import Mathlib.Data.List.Basic
import FilterQuery.Engine

/-!
# Lookups by position

A table keeps its entries in order of registration and finds them by position:
an index leads from a key to a place, and the places of the filters with a
pattern stand in a list of their own.  Because both lead exactly where they
should, a lookup gives what a scan of the entries gives, and an entry is
rejected exactly if the scan meets one that is called the same.  All that is
proved about lookups rests on the scan.
-/

namespace FilterQuery

variable {α β : Type}

namespace Index.LeadsTo

variable {index : Index} {key? : β → Option String} {entries : List β}

/-- **Going to the place of a key finds the entry that a scan finds.** -/
theorem find?_eq (h : index.LeadsTo key? entries) (key : String) :
    (index.place? key).bind (entries[·]?) =
      entries.find? fun b => key? b = some key := by
  cases hplace : index.place? key with
  | none =>
      refine (List.find?_eq_none.mpr fun b hb => ?_).symm
      obtain ⟨i, hi⟩ := List.mem_iff_getElem?.mp hb
      have hne := h.key_ne hplace i
      rw [hi, Option.bind_some] at hne
      rwa [decide_eq_true_eq]
  | some i =>
      obtain ⟨b, hb, hkey⟩ := Option.bind_eq_some_iff.mp ((h key i).mp hplace)
      obtain ⟨hi, rfl⟩ := List.getElem?_eq_some_iff.mp hb
      rw [Option.bind_some, hb]
      refine (List.find?_eq_some_iff_getElem.mpr ⟨?_, i, hi, rfl, ?_⟩).symm
      · rwa [decide_eq_true_eq]
      · -- An earlier entry with the key would have the same place.
        intro j hj
        have hother : key? entries[j] ≠ some key := by
          intro hkey'
          have hplace' := (h key j).mpr (by
            rwa [List.getElem?_eq_getElem (Nat.lt_trans hj hi), Option.bind_some])
          exact Nat.ne_of_gt hj (Option.some.inj (hplace.symm.trans hplace'))
        rw [Bool.not_eq_true', decide_eq_false_iff_not]
        exact hother

/-- A key leads nowhere exactly if no entry has it. -/
theorem place?_eq_none (h : index.LeadsTo key? entries) {key : String} :
    index.place? key = none ↔ ∀ b ∈ entries, key? b ≠ some key := by
  constructor
  · intro hplace b hb
    obtain ⟨i, hi⟩ := List.mem_iff_getElem?.mp hb
    have hne := h.key_ne hplace i
    rwa [hi, Option.bind_some] at hne
  · intro hfree
    refine Option.eq_none_iff_forall_ne_some.mpr fun i hplace => ?_
    obtain ⟨b, hb, hkey⟩ := Option.bind_eq_some_iff.mp ((h key i).mp hplace)
    exact hfree b (List.mem_of_getElem? hb) hkey

end Index.LeadsTo

section Places

variable {p : β → Bool} {entries : List β}

/-- The places listed are those of the entries that satisfy the predicate. -/
theorem mem_placesOf {i : Nat} :
    i ∈ placesOf p entries ↔ ∃ b, entries[i]? = some b ∧ p b = true := by
  rw [placesOf, List.mem_map]
  constructor
  · rintro ⟨⟨b, i⟩, hmem, rfl⟩
    obtain ⟨hentry, hb⟩ := List.mem_filter.mp hmem
    exact ⟨b, List.mem_zipIdx_iff_getElem?.mp hentry, hb⟩
  · rintro ⟨b, hentry, hb⟩
    refine ⟨(b, i), List.mem_filter.mpr ⟨?_, hb⟩, rfl⟩
    exact List.mem_zipIdx_iff_getElem?.mpr hentry

/-- The places listed stand in order, each of them once. -/
theorem placesOf_pairwise (p : β → Bool) (entries : List β) :
    (placesOf p entries).Pairwise (· < ·) := by
  have hsublist : (placesOf p entries).Sublist (entries.zipIdx.map (·.2)) :=
    List.filter_sublist.map _
  rw [List.zipIdx_map_snd] at hsublist
  exact List.Pairwise.sublist hsublist List.pairwise_lt_range'

/-- **Trying the entries at the places one after the other is a scan** that
leaves out the other entries. -/
theorem findSome?_placesOf {γ : Type} (p : β → Bool) (g : β → Option γ) (entries : List β) :
    (placesOf p entries).findSome? (fun i => entries[i]?.bind g) =
      entries.findSome? fun b => if p b then g b else none := by
  have hentry : ∀ entry ∈ entries.zipIdx,
      (if p entry.1 then entries[entry.2]?.bind g else none) =
        if p entry.1 then g entry.1 else none := by
    intro entry hmem
    rw [List.mem_zipIdx_iff_getElem?.mp hmem, Option.bind_some]
  have hscan : (placesOf p entries).filterMap (fun i => entries[i]?.bind g) =
      entries.filterMap fun b => if p b then g b else none := by
    rw [placesOf, List.filterMap_map, List.filterMap_filter]
    refine (List.filterMap_congr hentry).trans ?_
    rw [← congrArg (List.filterMap _) (List.zipIdx_map_fst 0 entries), List.filterMap_map]
    rfl
  rw [← List.head?_filterMap, hscan, List.head?_filterMap]

end Places

/-- The tokens call by the same name, letters in any case, or by patterns of the
same text. -/
def FilterToken.IsSame : FilterToken → FilterToken → Prop
  | exact a, exact b => Text.lowercase a = Text.lowercase b
  | family s _, family t _ => s = t
  | _, _ => False

/-- If one token calls by the same name as another, so does that one. -/
theorem FilterToken.IsSame.symm {s t : FilterToken} (h : s.IsSame t) : t.IsSame s := by
  cases s <;> cases t
  case exact.exact a b => exact Eq.symm h
  case family.family s _ t _ => exact Eq.symm h
  all_goals cases h

namespace Filter

/-- The filter is called by the name, letters in any case. -/
def isNamed (name : String) (f : Filter α) : Bool := f.key? = some (Text.lowercase name)

/-- The filter, if it has a pattern that the name fits, with what that
captures. -/
def inFamily? (name : String) (f : Filter α) : Option (FoundFilter α) :=
  if f.isFamily then
    (f.token.captures? name).map fun captures => { filter := f, captures }
  else none

/-- The key of a filter is the lower-case form of its name. -/
theorem key?_eq_some {f : Filter α} {key : String} :
    f.key? = some key ↔ ∃ token, f.token = .exact token ∧ Text.lowercase token = key := by
  unfold key?
  cases f.token with
  | exact token => simp
  | family text pattern => simp

/-- A filter is a family if its token is a pattern. -/
theorem isFamily_eq_true {f : Filter α} :
    f.isFamily = true ↔ ∃ text pattern, f.token = .family text pattern := by
  unfold isFamily
  cases f.token with
  | exact token => simp
  | family text pattern => simp

/-- A filter is called so exactly if its token is a name of that form. -/
theorem isNamed_eq_true {name : String} {f : Filter α} :
    isNamed name f = true ↔
      ∃ token, f.token = .exact token ∧ Text.lowercase token = Text.lowercase name := by
  rw [isNamed, decide_eq_true_eq, key?_eq_some]

/-- A filter with a name answers to that name in any case. -/
theorem isNamed_of_exact {name token : String} {f : Filter α} (h : f.token = .exact token) :
    f.isNamed name = decide (Text.lowercase token = Text.lowercase name) := by
  rw [isNamed, key?, h]
  simp

/-- A name finds a filter with a pattern if that matches it. -/
theorem inFamily?_eq_some {name : String} {f : Filter α} {found : FoundFilter α} :
    inFamily? name f = some found ↔
      ∃ text pattern captures, f.token = .family text pattern ∧
        pattern.captures? name = some captures ∧ found = { filter := f, captures } := by
  unfold inFamily? isFamily
  cases htoken : f.token with
  | exact token => simp
  | family text pattern => simp [FilterToken.captures?, eq_comm (a := found)]

/-- A name finds no filter with a pattern that does not match it. -/
theorem inFamily?_eq_none {name : String} {f : Filter α} :
    inFamily? name f = none ↔
      ∀ text pattern, f.token = .family text pattern → pattern.captures? name = none := by
  unfold inFamily? isFamily
  cases htoken : f.token with
  | exact token => simp
  | family text pattern => simp [FilterToken.captures?]

/-- What is called the same as a filter with a name has its key. -/
theorem isSame_exact_iff {f : Filter α} {name : String} :
    f.token.IsSame (.exact name) ↔ f.key? = some (Text.lowercase name) := by
  unfold key? FilterToken.IsSame
  cases f.token <;> simp

/-- What is called the same as a filter with a pattern has that pattern. -/
theorem isSame_family_iff {f : Filter α} {text : String} {pattern : Pattern} :
    f.token.IsSame (.family text pattern) ↔ f.hasPattern text = true := by
  unfold hasPattern FilterToken.IsSame
  cases f.token <;> simp

/-- A filter with this pattern is one with a pattern. -/
theorem isFamily_of_hasPattern {f : Filter α} {text : String}
    (h : f.hasPattern text = true) : f.isFamily = true := by
  unfold hasPattern at h
  split at h
  · cases h
  · next other pattern htoken => exact isFamily_eq_true.mpr ⟨other, pattern, htoken⟩

end Filter

namespace FilterTable

variable {table : FilterTable α}

/-- What a scan of the filters finds under a name: the first that is called so,
or else the first in whose family the name is. -/
def scan? (filters : List (Filter α)) (name : String) : Option (FoundFilter α) :=
  ((filters.find? (·.isNamed name)).map fun f => { filter := f }).or
    (filters.findSome? (·.inFamily? name))

/-- **A lookup by position finds what a scan finds.** -/
theorem find?_eq_scan? (table : FilterTable α) (name : String) :
    table.find? name = scan? table.filters name := by
  have hnamed : (table.named.place? (Text.lowercase name)).bind (table.filters[·]?) =
      table.filters.find? (·.isNamed name) :=
    table.named_leads.find?_eq (Text.lowercase name)
  have hfamilies := findSome?_placesOf Filter.isFamily
    (fun f : Filter α => (f.token.captures? name).map (FoundFilter.mk f)) table.filters
  rw [← table.families_eq] at hfamilies
  unfold find? scan?
  rw [← hnamed]
  cases hplace : table.named.place? (Text.lowercase name) with
  | none => exact hfamilies
  | some place =>
      obtain ⟨f, hf, -⟩ := Option.bind_eq_some_iff.mp ((table.named_leads _ _).mp hplace)
      dsimp only
      rw [Option.bind_some, hf]
      rfl

/-- A key leads to the filter that is called so, letters in any case. -/
theorem named_place?_eq_some (table : FilterTable α) {key : String} {place : Nat} :
    table.named.place? key = some place ↔
      ∃ f token, table.filters[place]? = some f ∧ f.token = .exact token ∧
        Text.lowercase token = key := by
  rw [table.named_leads key place, Option.bind_eq_some_iff]
  refine exists_congr fun f => ?_
  rw [Filter.key?_eq_some, ← exists_and_left]

/-- The places listed are those of the filters with patterns. -/
theorem mem_families (table : FilterTable α) {place : Nat} :
    place ∈ table.families ↔
      ∃ f text pattern, table.filters[place]? = some f ∧ f.token = .family text pattern := by
  rw [table.families_eq, mem_placesOf]
  refine exists_congr fun f => ?_
  rw [Filter.isFamily_eq_true]
  simp

/-- A pattern is taken exactly if some filter has it. -/
theorem hasFamily_iff {text : String} :
    table.hasFamily text = true ↔ ∃ g ∈ table.filters, g.hasPattern text = true := by
  rw [hasFamily, table.families_eq, List.any_eq_true]
  constructor
  · rintro ⟨i, -, hi⟩
    obtain ⟨g, hg, hpattern⟩ := (Option.any_eq_true _ _).mp hi
    exact ⟨g, List.mem_of_getElem? hg, hpattern⟩
  · rintro ⟨g, hg, hpattern⟩
    obtain ⟨i, hi⟩ := List.mem_iff_getElem?.mp hg
    refine ⟨i, mem_placesOf.mpr ⟨g, hi, Filter.isFamily_of_hasPattern hpattern⟩, ?_⟩
    rw [hi, Option.any_some, hpattern]

/-- **What an offer does to the table**: it is rejected, because of a filter
that is called the same, or the filter is the last one from then on. -/
theorem insert?_cases (table : FilterTable α) (f : Filter α) :
    (table.insert? f = none ∧ ∃ g ∈ table.filters, g.token.IsSame f.token) ∨
      ∃ table', table.insert? f = some table' ∧ table'.filters = table.filters ++ [f] ∧
        ∀ g ∈ table.filters, ¬ g.token.IsSame f.token := by
  unfold insert?
  split
  · next name htoken =>
      simp only [htoken, Filter.isSame_exact_iff]
      split
      · next hfree =>
          exact .inr ⟨_, rfl, rfl, table.named_leads.place?_eq_none.mp hfree⟩
      · next htaken =>
          rw [table.named_leads.place?_eq_none] at htaken
          push Not at htaken
          exact .inl ⟨rfl, htaken⟩
  · next text pattern htoken =>
      simp only [htoken, Filter.isSame_family_iff]
      split
      · next htaken => exact .inl ⟨rfl, hasFamily_iff.mp htaken⟩
      · next hfree =>
          exact .inr ⟨_, rfl, rfl, fun g hg hpattern => hfree (hasFamily_iff.mpr ⟨g, hg, hpattern⟩)⟩

end FilterTable

namespace OperatorTable

variable {table table' : OperatorTable}

/-- A token finds the operator that a scan finds. -/
theorem find?_eq_scan (table : OperatorTable) (token : String) :
    table.find? token = table.operators.find? fun op => op.token = token := by
  have hscan := table.leads.find?_eq token
  simp only [Option.some.injEq] at hscan
  exact hscan

/-- A token is contained exactly if an operator has it. -/
theorem contains_iff {token : String} :
    table.contains token = true ↔ ∃ op ∈ table.operators, op.token = token := by
  rw [contains, Option.isSome_iff_ne_none, ne_eq, table.leads.place?_eq_none]
  simp

/-- What inserting an operator does: its token is taken, or the operator is the
last one from then on. -/
theorem insert?_cases (table : OperatorTable) (op : Operator) :
    (table.insert? op = none ∧ table.contains op.token = true) ∨
      ∃ table', table.insert? op = some table' ∧
        table'.operators = table.operators ++ [op] ∧ table.contains op.token = false := by
  unfold insert?
  split
  · next htaken => exact .inl ⟨rfl, htaken⟩
  · next hfree => exact .inr ⟨_, rfl, rfl, eq_false_of_ne_true hfree⟩

/-- Operators with tokens of their own all come in. -/
theorem operators_foldl_insert? (ops : List Operator) :
    ∀ table : OperatorTable, ((table.operators ++ ops).map (·.token)).Nodup →
      (ops.foldl (fun table op => (table.insert? op).getD table) table).operators =
        table.operators ++ ops := by
  induction ops with
  | nil => exact fun table _ => (List.append_nil _).symm
  | cons op ops ih =>
      intro table hnodup
      rw [List.foldl_cons]
      rcases table.insert?_cases op with ⟨-, htaken⟩ | ⟨table', hinsert, hoperators, -⟩
      · obtain ⟨other, hother, htoken⟩ := contains_iff.mp htaken
        rw [List.map_append, List.nodup_append] at hnodup
        exact absurd htoken (hnodup.2.2 _ (List.mem_map_of_mem hother) _
          (List.mem_map_of_mem List.mem_cons_self))
      · have hoperators' : table'.operators ++ ops = table.operators ++ op :: ops := by
          rw [hoperators, List.append_assoc, List.singleton_append]
        rw [hinsert, Option.getD_some, ← hoperators']
        rw [← hoperators'] at hnodup
        exact ih table' hnodup

/-- The built-in operators are the relations. -/
theorem operators_builtin : builtin.operators = Relation.all.map Relation.toOperator := by
  have hfold := operators_foldl_insert? (Relation.all.map Relation.toOperator) empty
    (by decide +kernel)
  rw [List.foldl_map] at hfold
  exact hfold

/-- A change of one operator leaves all others. -/
theorem mem_modify? {token : String} {f : Operator → Operator}
    {hf : ∀ op, (f op).token = op.token} (h : table.modify? token f hf = some table')
    {op' : Operator} (hop' : op' ∈ table'.operators) :
    ∃ op ∈ table.operators, op' = f op ∨ op' = op := by
  obtain ⟨place, -, rfl⟩ := Option.map_eq_some_iff.mp h
  obtain ⟨i, hi⟩ := List.mem_iff_getElem?.mp hop'
  rw [List.getElem?_modify] at hi
  obtain ⟨op, hop, rfl⟩ := Option.map_eq_some_iff.mp hi
  refine ⟨op, List.mem_of_getElem? hop, ?_⟩
  split
  · exact .inl rfl
  · exact .inr rfl

end OperatorTable

namespace Lexicon

variable {lexicon lexicon' : Lexicon}

/-- A new operator comes into the table. -/
theorem insert?_eq_some {op : Operator} (h : lexicon.insert? op = some lexicon') :
    lexicon.operators.insert? op = some lexicon'.operators := by
  obtain ⟨table, htable, rfl⟩ := Option.map_eq_some_iff.mp h
  exact htable

/-- A new handler comes into the table. -/
theorem addHandler?_eq_some {token : String} {lhs rhs : ValueType} {handler : Handler}
    (h : lexicon.addHandler? token lhs rhs handler = some lexicon') :
    lexicon.operators.modify? token (·.addHandler lhs rhs handler)
      (fun op => op.token_addHandler lhs rhs handler) = some lexicon'.operators := by
  unfold addHandler? at h
  split at h
  · cases h
  · next hmodify =>
      obtain rfl := Option.some.inj h
      exact hmodify

end Lexicon

namespace Engine

/-- A name finds what a scan of the filters finds. -/
theorem findFilter?_eq_scan? (engine : Engine α) (name : String) :
    engine.findFilter? name = FilterTable.scan? engine.filters name :=
  engine.filterTable.find?_eq_scan? name

/-- The only filter is found by its name. -/
theorem findFilter?_of_single {engine : Engine α} {f : Filter α} {name : String}
    (hfilters : engine.filters = [f]) (hnamed : f.isNamed name = true) :
    engine.findFilter? name = some { filter := f } := by
  rw [findFilter?_eq_scan?, FilterTable.scan?, hfilters, List.find?_cons, hnamed]
  rfl

/-- What an offer does: it is rejected, because of a filter that is called the
same, and changes nothing, or the filter is the last one from then on. -/
theorem addFilter_cases (engine : Engine α) (f : Filter α) :
    (engine.addFilter f = (engine, false) ∧ ∃ g ∈ engine.filters, g.token.IsSame f.token) ∨
      ((engine.addFilter f).2 = true ∧
        (engine.addFilter f).1.filters = engine.filters ++ [f] ∧
        ∀ g ∈ engine.filters, ¬ g.token.IsSame f.token) := by
  unfold addFilter
  rcases engine.filterTable.insert?_cases f with
    ⟨hinsert, hsame⟩ | ⟨table, hinsert, hfilters, hfree⟩
  · rw [hinsert]
    exact .inl ⟨rfl, hsame⟩
  · rw [hinsert]
    exact .inr ⟨rfl, hfilters, hfree⟩

end Engine

end FilterQuery
