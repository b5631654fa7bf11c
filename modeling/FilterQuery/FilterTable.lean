import FilterQuery.Filter
import FilterQuery.Index

/-!
# Tables of filters

Filters stand in order of registration.  An index leads from a name, letters in
any case, to the filter called so, and the places of the filters for all names
of a pattern are listed on their own.  A name is looked up in the index, and
only if that knows nothing of it the patterns are tried one after the other.
-/

namespace FilterQuery

variable {α : Type}

namespace Filter

/-- The name in lower case, if the filter is called by one. -/
def key? (f : Filter α) : Option String :=
  match f.token with
  | .exact name => some (Text.lowercase name)
  | .family .. => none

/-- The filter stands for the names of a pattern. -/
def isFamily (f : Filter α) : Bool :=
  match f.token with
  | .exact _ => false
  | .family .. => true

/-- The filter has this pattern. -/
def hasPattern (text : String) (f : Filter α) : Bool :=
  match f.token with
  | .exact _ => false
  | .family other _ => other = text

/-- A filter has a key exactly if it is no family. -/
theorem isFamily_eq (f : Filter α) : f.isFamily = f.key?.isNone := by
  unfold isFamily key?
  cases f.token with
  | exact name => rfl
  | family text pattern => rfl

end Filter

/-- A filter found under a name, with what its pattern has captured. -/
structure FoundFilter (α : Type) where
  filter : Filter α
  captures : List String := []

/-- The filters of an engine. -/
structure FilterTable (α : Type) where
  /-- In order of registration. -/
  filters : List (Filter α)
  /-- Where the filter that is called by a name stands, by its lower-case
  form. -/
  named : Index
  /-- Where the filters for the names of a pattern stand, in order. -/
  families : List Nat
  named_leads : named.LeadsTo Filter.key? filters
  families_eq : families = placesOf Filter.isFamily filters

namespace FilterTable

def empty : FilterTable α := ⟨[], {}, [], Index.leadsTo_nil _, rfl⟩

/-- Some filter has this pattern. -/
def hasFamily (table : FilterTable α) (text : String) : Bool :=
  table.families.any fun place => table.filters[place]?.any (·.hasPattern text)

/-- Appends a filter of a new name. -/
def appendNamed (table : FilterTable α) (f : Filter α) (key : String)
    (hkey : f.key? = some key) (hfree : table.named.place? key = none) : FilterTable α where
  filters := table.filters ++ [f]
  named := table.named.put key table.filters.length
  families := table.families
  named_leads := table.named_leads.put hkey hfree
  families_eq := by
    rw [placesOf_concat, f.isFamily_eq, hkey, table.families_eq]
    rfl

/-- Appends a filter for the names of a pattern. -/
def appendFamily (table : FilterTable α) (f : Filter α) (hkey : f.key? = none) :
    FilterTable α where
  filters := table.filters ++ [f]
  named := table.named
  families := table.families ++ [table.filters.length]
  named_leads := table.named_leads.append_keyless hkey
  families_eq := by
    rw [placesOf_concat, f.isFamily_eq, hkey, table.families_eq]
    rfl

/-- Adds a filter unless another one is called the same, letters in any case, or
has the same pattern. -/
def insert? (table : FilterTable α) (f : Filter α) : Option (FilterTable α) :=
  match htoken : f.token with
  | .exact name =>
    if hfree : table.named.place? (Text.lowercase name) = none then
      some (table.appendNamed f (Text.lowercase name) (by rw [Filter.key?, htoken]) hfree)
    else none
  | .family text _ =>
    if table.hasFamily text then none
    else some (table.appendFamily f (by rw [Filter.key?, htoken]))

/-- The filter for a name: the one called so, or else the first whose pattern
the name fits. -/
def find? (table : FilterTable α) (name : String) : Option (FoundFilter α) :=
  match table.named.place? (Text.lowercase name) with
  | some place => table.filters[place]?.map fun f => { filter := f }
  | none =>
    table.families.findSome? fun place =>
      table.filters[place]?.bind fun f =>
        (f.token.captures? name).map fun captures => { filter := f, captures }

end FilterTable

end FilterQuery
