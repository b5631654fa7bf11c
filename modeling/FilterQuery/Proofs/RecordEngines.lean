import Mathlib
import FilterQuery.Proofs.Lookups
import FilterQuery.Records

/-!
# Engines for records

Every key of the records is offered as a filter, in the order in which the keys
first occur.  A filter whose name is taken is not added, and names that differ
in case alone are one name; so a key resolves to the filter of the first key
that is called like it, letters in any case, and to its own if there is no other
such key.
-/

namespace FilterQuery

variable {α : Type}

namespace Engine

/-- Filters leave the operators as they are. -/
theorem addFilter_operators (engine : Engine α) (f : Filter α) :
    (engine.addFilter f).1.operators = engine.operators := by
  rw [addFilter]
  split <;> rfl

/-- Aggregators leave the operators and the filters as they are. -/
theorem addAggregator_frame (engine : Engine α) (name : String) (a : Aggregator α) :
    (engine.addAggregator name a).1.operators = engine.operators ∧
      (engine.addAggregator name a).1.filters = engine.filters := by
  rw [addAggregator]
  split <;> exact ⟨rfl, rfl⟩

/-- The aggregators of an ordering leave them as they are, too. -/
theorem addOrdering_frame (engine : Engine α) (key : α → Option Value) :
    (engine.addOrdering key).1.operators = engine.operators ∧
      (engine.addOrdering key).1.filters = engine.filters := by
  obtain ⟨hoperators, hfilters⟩ := engine.addAggregator_frame "max" (.max key)
  obtain ⟨hoperators', hfilters'⟩ :=
    (engine.addAggregator "max" (.max key)).1.addAggregator_frame "min" (.min key)
  exact ⟨hoperators'.trans hoperators, hfilters'.trans hfilters⟩

/-- Offers filters one after the other. -/
def addFilters (engine : Engine α) (fs : List (Filter α)) : Engine α :=
  fs.foldl (fun engine f => (engine.addFilter f).1) engine

/-- Any number of filters leaves the operators as they are. -/
theorem addFilters_operators (engine : Engine α) (fs : List (Filter α)) :
    (engine.addFilters fs).operators = engine.operators := by
  induction fs generalizing engine with
  | nil => rfl
  | cons f fs ih => exact (ih _).trans (engine.addFilter_operators f)

/-- A filter that is called the same as another one answers to every name that
the other answers to. -/
theorem isNamed_congr {name token : String} {f g : Filter α} (hf : f.token = .exact token)
    (hsame : g.token.IsSame f.token) : f.isNamed name = g.isNamed name := by
  rw [hf, Filter.isSame_exact_iff] at hsame
  rw [Filter.isNamed, Filter.isNamed, hsame, Filter.key?, hf]

/-- **The first filter offered under a name is the one found.** -/
theorem find?_addFilters (engine : Engine α) {fs : List (Filter α)}
    (hexact : ∀ f ∈ fs, ∃ token, f.token = .exact token) (name : String) :
    (engine.addFilters fs).filters.find? (·.isNamed name) =
      (engine.filters ++ fs).find? (·.isNamed name) := by
  induction fs generalizing engine with
  | nil => rw [List.append_nil]; rfl
  | cons f fs ih =>
      obtain ⟨⟨token, htoken⟩, hrest⟩ := List.forall_mem_cons.mp hexact
      refine (ih (engine.addFilter f).1 hrest).trans ?_
      rcases engine.addFilter_cases f with ⟨hrejected, g, hg, hsame⟩ | ⟨-, hfilters, -⟩
      · rw [hrejected, List.find?_append, List.find?_append, List.find?_cons]
        split
        · next hf =>
            rw [isNamed_congr htoken hsame] at hf
            have hsome := List.find?_isSome.mpr ⟨g, hg, hf⟩
            obtain ⟨found, hfound⟩ := Option.isSome_iff_exists.mp hsome
            rw [hfound, Option.some_or, Option.some_or]
        · rfl
      · rw [hfilters, List.append_assoc, List.singleton_append]

end Engine

namespace Records

variable (records : Records) (orderBy : Option String) (depth : Nat)

/-- The keys are those of the records. -/
theorem mem_keys {key : String} : key ∈ records.keys ↔ ∃ r ∈ records.toList, key ∈ keysOf r := by
  have hfold : ∀ offered seen : List String,
      key ∈ offered.foldl (fun seen k => if seen.contains k then seen else seen ++ [k]) seen ↔
        key ∈ seen ∨ key ∈ offered := by
    intro offered
    induction offered with
    | nil => simp
    | cons k offered ih =>
        intro seen
        rw [List.foldl_cons, ih, List.mem_cons]
        split
        · next hseen =>
            rw [List.contains_iff_mem] at hseen
            exact ⟨Or.imp_right .inr, fun h => h.elim .inl fun h =>
              h.elim (fun heq => .inl (heq ▸ hseen)) .inr⟩
        · rw [List.mem_append, List.mem_singleton, or_assoc]
  rw [keys, hfold, List.mem_flatMap]
  simp

/-- The filters that are offered, in this order. -/
def offered : List (Filter records.Element) :=
  records.keys.map records.fieldFilter ++ [records.indexFilter]

/-- Each filter on offer has an exact token. -/
theorem offered_exact : ∀ f ∈ records.offered, ∃ token, f.token = .exact token := by
  intro f hf
  rcases List.mem_append.mp hf with hf | hf
  · obtain ⟨key, -, rfl⟩ := List.mem_map.mp hf
    exact ⟨key, rfl⟩
  · obtain rfl := List.mem_singleton.mp hf
    exact ⟨"#index", rfl⟩

/-- The engine has the built-in operators, and under each name the first filter
on offer for it. -/
theorem flatEngine_frame : (records.flatEngine orderBy).operators = .builtin ∧
    ∀ name, (records.flatEngine orderBy).filters.find? (·.isNamed name) =
      records.offered.find? (·.isNamed name) := by
  let start : Engine records.Element :=
    { searchTexts := some fun e => searchTexts (records.record e) }
  have hoperators : (start.addFilters records.offered).operators = .builtin :=
    start.addFilters_operators _
  have hfilters := start.find?_addFilters records.offered_exact
  cases orderBy with
  | none => exact ⟨hoperators, hfilters⟩
  | some key =>
      obtain ⟨hoperators', hfilters'⟩ :=
        (start.addFilters records.offered).addOrdering_frame (records.orderKey key)
      exact ⟨hoperators'.trans hoperators, fun name =>
        (congrArg (List.find? (·.isNamed name)) hfilters').trans (hfilters name)⟩

/-- What nested queries yield at a depth: nothing at all at the last one. -/
def nestedResults : (depth : Nat) → (query filter : String) → List records.Element
  | 0, _, _ => []
  | depth + 1, query, _ => ((records.engine orderBy depth).parse query).results records.elements

/-- At every depth the engine is the same but for the handler of nested
queries. -/
theorem engine_eq : records.engine orderBy depth =
    { records.flatEngine orderBy with
      nestedHandler := some (records.nestedResults orderBy depth) } := by
  cases depth <;> rfl

/-- Records have the operators that every engine starts with. -/
theorem engine_operators : (records.engine orderBy depth).operators = .builtin := by
  rw [engine_eq]
  exact (records.flatEngine_frame orderBy).1

/-- A name in any case finds the filter of the first key called like it. -/
theorem findFilter?_of_key {name first : String}
    (h : records.keys.find? (fun key => Text.lowercase key = Text.lowercase name) = some first) :
    (records.engine orderBy depth).findFilter? name =
      some { filter := records.fieldFilter first } := by
  have hfind : (records.engine orderBy depth).filters.find? (·.isNamed name) =
      some (records.fieldFilter first) := by
    have hnamed : (·.isNamed name) ∘ records.fieldFilter =
        fun key => decide (Text.lowercase key = Text.lowercase name) :=
      funext fun key => Filter.isNamed_of_exact rfl
    have hflat : (records.engine orderBy depth).filters =
        (records.flatEngine orderBy).filters := by
      rw [engine_eq]
      rfl
    rw [hflat, (records.flatEngine_frame orderBy).2, offered, List.find?_append, List.find?_map,
      hnamed, h]
    rfl
  rw [Engine.findFilter?_eq_scan?, FilterTable.scan?, hfind]
  rfl

/-- **A key resolves to the first key called like it.**  Letters may be in any
case.  The filter found has the type of the values under that first key and
reads the scalar under it from each record, and so a key that no other one is
called like is queryable under its own name. -/
theorem key_resolves_to_the_first_of_its_name (records : Records) (orderBy : Option String)
    (depth : Nat) {key : String} (hkey : ∃ r ∈ records.toList, key ∈ keysOf r) :
    ∃ first ∈ records.keys, Text.lowercase first = Text.lowercase key ∧
      records.keys.find? (fun k => Text.lowercase k = Text.lowercase key) = some first ∧
      ((∀ k ∈ records.keys, Text.lowercase k = Text.lowercase key → k = key) → first = key) ∧
      ∃ found, (records.engine orderBy depth).findFilter? key = some found ∧
        found.filter.type = records.fieldType first ∧
        found.filter.source = .reader fun _ => some fun e =>
          fieldValue (records.record e) first (records.fieldType first) := by
  have hmem : key ∈ records.keys := records.mem_keys.mpr hkey
  have hsome : (records.keys.find? fun k => Text.lowercase k = Text.lowercase key).isSome :=
    List.find?_isSome.mpr ⟨key, hmem, by simp⟩
  obtain ⟨first, hfirst⟩ := Option.isSome_iff_exists.mp hsome
  have hfirstMem := List.mem_of_find?_eq_some hfirst
  have hlowercase : Text.lowercase first = Text.lowercase key := by
    simpa using List.find?_some hfirst
  exact ⟨first, hfirstMem, hlowercase, hfirst, fun hsole => hsole first hfirstMem hlowercase, _,
    records.findFilter?_of_key orderBy depth hfirst, rfl, rfl⟩

/-- `Size` is found under its own name if no other key is called like it. -/
theorem key_of_one_record :
    let records : Records := #[.object [("Size", .number (.integer 1))], .null]
    (∃ r ∈ records.toList, "Size" ∈ keysOf r) ∧
      ∃ found, (records.engine none 0).findFilter? "Size" = some found ∧
        found.filter.type = .integer := by
  intro records
  have hkey : ∃ r ∈ records.toList, "Size" ∈ keysOf r := ⟨_, List.mem_cons_self, by simp [keysOf]⟩
  obtain ⟨first, -, -, -, hsole, found, hfound, htype, -⟩ :=
    key_resolves_to_the_first_of_its_name records none 0 hkey
  have hfirst : first = "Size" := hsole (by decide +kernel)
  refine ⟨hkey, found, hfound, ?_⟩
  rw [htype, hfirst]
  decide +kernel

/-- `a` finds the integers under `A`, which comes first, and not its own
texts. -/
theorem key_behind_another_of_its_name :
    let records : Records := #[.object [("A", .number (.integer 1)), ("a", .string "x")]]
    (∃ r ∈ records.toList, "a" ∈ keysOf r) ∧ records.fieldType "a" = .string ∧
      ((records.engine none 0).findFilter? "a").map (·.filter.type) = some .integer := by
  intro records
  exact ⟨⟨_, List.mem_cons_self, by simp [keysOf]⟩, by decide +kernel, by decide +kernel⟩

end Records

end FilterQuery
