import FilterQuery.Proofs.CoherentRelations
import FilterQuery.Proofs.RecordEngines

/-!
# Names of filters

Filters are offered to an engine one after the other.  An offer is rejected if
the name, letters in any case, or the text of the pattern has been taken by a
filter accepted before, so that no two filters are called the same.  A name in a
query then finds the one filter called so, and only if there is none the first
of those whose pattern it fits.

A token on its own tells whether a name is meant by it, but it ignores the case
of ASCII letters only, whereas engines look up lower-case forms.  What a token
takes for its name is found; what is found by a name with other letters may be
taken by no token.
-/

namespace FilterQuery

variable {α : Type}

/-- No two filters are called the same. -/
def AreDistinct (filters : List (Filter α)) : Prop :=
  filters.Pairwise fun f g => ¬ f.token.IsSame g.token

/-- Distinct filters with the same token are one. -/
theorem AreDistinct.eq_of_isSame {filters : List (Filter α)} (h : AreDistinct filters)
    {f g : Filter α} (hf : f ∈ filters) (hg : g ∈ filters) (hsame : f.token.IsSame g.token) :
    f = g := by
  by_contra hne
  have : Std.Symm fun f g : Filter α => ¬ f.token.IsSame g.token :=
    ⟨fun f g hfg hgf => hfg hgf.symm⟩
  exact h.forall hf hg hne hsame

namespace Engine

/-- The filters of an engine stay distinct with one more offer. -/
theorem addFilter_distinct {engine : Engine α} (h : AreDistinct engine.filters) (f : Filter α) :
    AreDistinct (engine.addFilter f).1.filters := by
  rcases engine.addFilter_cases f with ⟨hrejected, -⟩ | ⟨-, hfilters, hfree⟩
  · rw [hrejected]
    exact h
  · rw [hfilters]
    refine List.pairwise_append.mpr ⟨h, List.pairwise_singleton _ _, fun g hg f' hf' => ?_⟩
    obtain rfl := List.mem_singleton.mp hf'
    exact hfree g hg

/-- **Filters are called by different names**, whatever has been offered. -/
theorem addFilters_distinct {engine : Engine α} (h : AreDistinct engine.filters)
    (fs : List (Filter α)) : AreDistinct (engine.addFilters fs).filters := by
  induction fs generalizing engine with
  | nil => exact h
  | cons f fs ih => exact ih (addFilter_distinct h f)

/-- Of the filters offered one after the other, those whose offer is
accepted. -/
def accepted (engine : Engine α) : List (Filter α) → List (Filter α)
  | [] => []
  | f :: fs =>
    if (engine.addFilter f).2 then f :: accepted (engine.addFilter f).1 fs
    else accepted (engine.addFilter f).1 fs

/-- **The filters of an engine are those accepted**, in this order. -/
theorem filters_addFilters (engine : Engine α) (fs : List (Filter α)) :
    (engine.addFilters fs).filters = engine.filters ++ engine.accepted fs := by
  induction fs generalizing engine with
  | nil => rw [accepted, List.append_nil]; rfl
  | cons f fs ih =>
      have hcons : engine.addFilters (f :: fs) = (engine.addFilter f).1.addFilters fs := rfl
      rw [hcons, ih, accepted]
      rcases engine.addFilter_cases f with ⟨hrejected, -⟩ | ⟨haccepted, hfilters, -⟩
      · rw [hrejected, if_neg Bool.false_ne_true]
      · rw [haccepted, if_pos rfl, hfilters, List.append_assoc, List.singleton_append]

/-- What a name finds among filters. -/
inductive Resolves (filters : List (Filter α)) (name : String) : Option (FoundFilter α) → Prop where
  /-- The filter called so, letters in any case. -/
  | exact {f : Filter α} {token : String} (hmem : f ∈ filters) (htoken : f.token = .exact token)
      (hname : Text.lowercase token = Text.lowercase name) :
      Resolves filters name (some { filter := f })
  /-- If there is none, the first filter whose pattern the name fits. -/
  | family {front back : List (Filter α)} {f : Filter α} {text : String} {pattern : Pattern}
      {captures : List String}
      (hexact : ∀ g ∈ filters, ∀ token, g.token = .exact token →
        Text.lowercase token ≠ Text.lowercase name)
      (hsplit : filters = front ++ f :: back) (htoken : f.token = .family text pattern)
      (hcaptures : pattern.captures? name = some captures)
      (hfirst : ∀ g ∈ front, ∀ text pattern, g.token = .family text pattern →
        pattern.captures? name = none) :
      Resolves filters name (some { filter := f, captures })
  /-- If there is none either, nothing. -/
  | nothing
      (hexact : ∀ g ∈ filters, ∀ token, g.token = .exact token →
        Text.lowercase token ≠ Text.lowercase name)
      (hfamily : ∀ g ∈ filters, ∀ text pattern, g.token = .family text pattern →
        pattern.captures? name = none) :
      Resolves filters name none

/-- No filter is called so if a scan for the name finds none. -/
theorem find?_isNamed_eq_none {filters : List (Filter α)} {name : String} :
    filters.find? (·.isNamed name) = none ↔ ∀ g ∈ filters, ∀ token, g.token = .exact token →
      Text.lowercase token ≠ Text.lowercase name := by
  rw [List.find?_eq_none]
  refine forall₂_congr fun g _ => ?_
  rw [Filter.isNamed_eq_true]
  simp

/-- A scan finds something that the name finds. -/
theorem resolves_scan? (filters : List (Filter α)) (name : String) :
    Resolves filters name (FilterTable.scan? filters name) := by
  unfold FilterTable.scan?
  cases hnamed : filters.find? (·.isNamed name) with
  | some f =>
      obtain ⟨token, htoken, hname⟩ := Filter.isNamed_eq_true.mp (List.find?_some hnamed)
      exact .exact (List.mem_of_find?_eq_some hnamed) htoken hname
  | none =>
      have hexact := find?_isNamed_eq_none.mp hnamed
      rw [Option.map_none, Option.none_or]
      cases hfamily : filters.findSome? (·.inFamily? name) with
      | none =>
          exact .nothing hexact fun g hg =>
            Filter.inFamily?_eq_none.mp (List.findSome?_eq_none_iff.mp hfamily g hg)
      | some found =>
          obtain ⟨front, f, back, hsplit, hf, hfirst⟩ := List.findSome?_eq_some_iff.mp hfamily
          obtain ⟨text, pattern, captures, htoken, hcaptures, rfl⟩ :=
            Filter.inFamily?_eq_some.mp hf
          exact .family hexact hsplit htoken hcaptures fun g hg =>
            Filter.inFamily?_eq_none.mp (hfirst g hg)

/-- A name finds nothing else than what a scan finds, if no two filters are
called the same. -/
theorem Resolves.scan?_eq {filters : List (Filter α)} {name : String}
    {found : Option (FoundFilter α)} (hresolves : Resolves filters name found)
    (h : AreDistinct filters) : FilterTable.scan? filters name = found := by
  unfold FilterTable.scan?
  cases hresolves with
  | @exact f token hmem htoken hname =>
      have hnamed : f.isNamed name = true := Filter.isNamed_eq_true.mpr ⟨token, htoken, hname⟩
      obtain ⟨g, hg⟩ := Option.isSome_iff_exists.mp (List.find?_isSome.mpr ⟨f, hmem, hnamed⟩)
      obtain ⟨token', htoken', hname'⟩ := Filter.isNamed_eq_true.mp (List.find?_some hg)
      have hsame : g.token.IsSame f.token := by
        rw [htoken, htoken']
        exact hname'.trans hname.symm
      obtain rfl := h.eq_of_isSame (List.mem_of_find?_eq_some hg) hmem hsame
      rw [hg]
      rfl
  | @family front back f text pattern captures hexact hsplit htoken hcaptures hfirst =>
      rw [find?_isNamed_eq_none.mpr hexact, Option.map_none, Option.none_or, hsplit,
        List.findSome?_append, List.findSome?_cons,
        List.findSome?_eq_none_iff.mpr fun g hg => Filter.inFamily?_eq_none.mpr (hfirst g hg),
        Filter.inFamily?_eq_some.mpr ⟨text, pattern, captures, htoken, hcaptures, rfl⟩]
      rfl
  | nothing hexact hfamily =>
      rw [find?_isNamed_eq_none.mpr hexact, Option.map_none, Option.none_or]
      exact List.findSome?_eq_none_iff.mpr fun g hg =>
        Filter.inFamily?_eq_none.mpr (hfamily g hg)

/-- **A lookup gives what the name finds**, and the name finds nothing else. -/
theorem resolves_iff {engine : Engine α} (h : AreDistinct engine.filters) {name : String}
    {found : Option (FoundFilter α)} :
    Resolves engine.filters name found ↔ engine.findFilter? name = found := by
  rw [findFilter?_eq_scan?]
  constructor
  · intro hresolves
    exact hresolves.scan?_eq h
  · rintro rfl
    exact resolves_scan? engine.filters name

/-- The engine that has been offered filters, one after the other, from the
beginning. -/
def ofOffers (fs : List (Filter α)) : Engine α := ({} : Engine α).addFilters fs

/-- Of the filters offered from the beginning, those whose offer is accepted. -/
def acceptedOffers (fs : List (Filter α)) : List (Filter α) := ({} : Engine α).accepted fs

/-- The filters are the offers that were accepted. -/
theorem filters_ofOffers (fs : List (Filter α)) :
    (ofOffers fs).filters = acceptedOffers fs :=
  ({} : Engine α).filters_addFilters fs

/-- The accepted offers are distinct. -/
theorem ofOffers_distinct (fs : List (Filter α)) : AreDistinct (ofOffers fs).filters :=
  addFilters_distinct (show AreDistinct ({} : Engine α).filters from List.Pairwise.nil) fs

/-- **Lookups after any history of offers.**  An offer is rejected exactly if a
filter accepted before is called the same, and a rejected offer changes nothing.
A name finds the accepted filter that is called so, or else the first accepted
one whose pattern it fits, or else nothing; so a filter of that name is found
before all patterns, whenever it has been offered.

The positions are in step with the filters all along: a lower-case form leads
exactly to the place of the accepted filter that is called so, and the places of
those with patterns are listed, each of them once and in order. -/
theorem lookups_follow_the_offers (fs : List (Filter α)) :
    (∀ f, (((ofOffers fs).addFilter f).2 = false ↔
        ∃ g ∈ acceptedOffers fs, g.token.IsSame f.token) ∧
      (((ofOffers fs).addFilter f).2 = false → ((ofOffers fs).addFilter f).1 = ofOffers fs)) ∧
    (∀ name found, (ofOffers fs).findFilter? name = found ↔
      Resolves (acceptedOffers fs) name found) ∧
    (∀ f ∈ acceptedOffers fs, ∀ token, f.token = .exact token →
      ∀ name, Text.lowercase token = Text.lowercase name →
        (ofOffers fs).findFilter? name = some { filter := f }) ∧
    (∀ key place, (ofOffers fs).filterTable.named.place? key = some place ↔
      ∃ f token, (acceptedOffers fs)[place]? = some f ∧ f.token = .exact token ∧
        Text.lowercase token = key) ∧
    (∀ place, place ∈ (ofOffers fs).filterTable.families ↔
      ∃ f text pattern, (acceptedOffers fs)[place]? = some f ∧
        f.token = .family text pattern) ∧
    (ofOffers fs).filterTable.families.Pairwise (· < ·) := by
  have hfilters : (ofOffers fs).filterTable.filters = acceptedOffers fs := filters_ofOffers fs
  have hresolves : ∀ name found, (ofOffers fs).findFilter? name = found ↔
      Resolves (acceptedOffers fs) name found := by
    intro name found
    rw [← filters_ofOffers]
    exact (resolves_iff (ofOffers_distinct fs)).symm
  refine ⟨fun f => ?_, hresolves, fun f hf token htoken name hname => ?_, fun key place => ?_,
    fun place => ?_, ?_⟩
  · rw [← filters_ofOffers]
    rcases (ofOffers fs).addFilter_cases f with ⟨hrejected, hsame⟩ | ⟨haccepted, -, hfree⟩
    · rw [hrejected]
      exact ⟨iff_of_true rfl hsame, fun _ => rfl⟩
    · rw [haccepted]
      refine ⟨iff_of_false Bool.noConfusion ?_, fun h => Bool.noConfusion h⟩
      rintro ⟨g, hg, hsame⟩
      exact hfree g hg hsame
  · exact (hresolves name _).mpr (.exact hf htoken hname)
  · rw [← hfilters]
    exact (ofOffers fs).filterTable.named_place?_eq_some
  · rw [← hfilters]
    exact (ofOffers fs).filterTable.mem_families
  · rw [(ofOffers fs).filterTable.families_eq]
    exact placesOf_pairwise _ _

/-- A filter that never has a value, under a name. -/
def filterNamed (name : String) : Filter Unit := .ofValues (.exact name) .string fun _ _ => none

/-- The like for all names that are the word `size`. -/
def sizeFamily : Filter Unit :=
  .ofValues (.family "size" (.literal ['s', 'i', 'z', 'e'])) .string fun _ _ => none

/-- A name that a pattern offered before takes as well, and the same name in
capitals. -/
theorem name_behind_a_pattern :
    ((ofOffers [sizeFamily, filterNamed "Size"]).addFilter (filterNamed "SIZE")).2 = false ∧
      ((ofOffers [sizeFamily, filterNamed "Size"]).addFilter (filterNamed "SIZE")).1 =
        ofOffers [sizeFamily, filterNamed "Size"] ∧
      (sizeFamily.token.captures? "size").isSome = true ∧
      filterNamed "Size" ∈ acceptedOffers [sizeFamily, filterNamed "Size"] ∧
      (ofOffers [sizeFamily, filterNamed "Size"]).findFilter? "size" =
        some { filter := filterNamed "Size" } := by
  obtain ⟨hoffers, -, hexact, -⟩ := lookups_follow_the_offers [sizeFamily, filterNamed "Size"]
  have hrejected : ((ofOffers [sizeFamily, filterNamed "Size"]).addFilter
      (filterNamed "SIZE")).2 = false := by decide +kernel
  have haccepted : acceptedOffers [sizeFamily, filterNamed "Size"] =
      [sizeFamily, filterNamed "Size"] := by
    rfl
  have hmem : filterNamed "Size" ∈ acceptedOffers [sizeFamily, filterNamed "Size"] := by
    rw [haccepted]
    simp
  exact ⟨hrejected, (hoffers _).2 hrejected, by decide +kernel, hmem,
    hexact _ hmem "Size" rfl "size" (by decide +kernel)⟩

end Engine

namespace Text

/-- The lower-case form of the text differs from it in ASCII letters only. -/
def IsPlain (s : String) : Prop := (lowercase s).toList = s.toList.map Char.toLower

/-- **Plain texts have the same lower-case form exactly if they differ in the
case of ASCII letters at most.** -/
theorem IsPlain.eqIgnoreAsciiCase_iff {a b : String} (ha : IsPlain a) (hb : IsPlain b) :
    eqIgnoreAsciiCase a b = true ↔ lowercase a = lowercase b := by
  rw [eqIgnoreAsciiCase, beq_iff_eq, ← String.toList_inj, ha, hb]

end Text

namespace FilterToken

/-- An exact token takes the names that differ from it in the case of ASCII
letters alone. -/
theorem captures?_exact_isSome {token name : String} :
    ((exact token).captures? name).isSome = true ↔ Text.eqIgnoreAsciiCase token name = true := by
  rw [captures?]
  cases Text.eqIgnoreAsciiCase token name <;> simp

end FilterToken

namespace Engine

variable {engine : Engine α} {name : String}

/-- A token takes a name if it is called so, or if its pattern fits. -/
theorem captures?_isSome_cases {f : Filter α} :
    (f.token.captures? name).isSome = true ↔
      (∃ token, f.token = .exact token ∧ Text.eqIgnoreAsciiCase token name = true) ∨
        (f.inFamily? name).isSome = true := by
  unfold Filter.inFamily? Filter.isFamily
  cases htoken : f.token with
  | exact token => simp [FilterToken.captures?_exact_isSome]
  | family text pattern => simp

/-- A name is found under a filter that is called so, or whose pattern it
fits. -/
theorem findFilter?_isSome :
    (engine.findFilter? name).isSome = true ↔ ∃ f ∈ engine.filters,
      f.isNamed name = true ∨ (f.inFamily? name).isSome = true := by
  rw [findFilter?_eq_scan?, FilterTable.scan?]
  cases hfind : engine.filters.find? (·.isNamed name) with
  | some f =>
      refine iff_of_true rfl ⟨f, List.mem_of_find?_eq_some hfind, .inl ?_⟩
      exact List.find?_some hfind
  | none =>
      rw [Option.map_none, Option.none_or, List.findSome?_isSome_iff]
      refine exists_congr fun f => and_congr_right fun hf => (or_iff_right ?_).symm
      exact List.find?_eq_none.mp hfind f hf

/-- **A name is found exactly if a token takes it or an exact one has its
lower-case form.** -/
theorem findFilter?_isSome_iff :
    (engine.findFilter? name).isSome = true ↔ ∃ f ∈ engine.filters,
      (f.token.captures? name).isSome = true ∨
        ∃ token, f.token = .exact token ∧ Text.lowercase token = Text.lowercase name := by
  rw [findFilter?_isSome]
  refine exists_congr fun f => and_congr_right fun _ => ?_
  rw [Filter.isNamed_eq_true, captures?_isSome_cases]
  constructor
  · rintro (hnamed | hfits)
    · exact .inr hnamed
    · exact .inl (.inr hfits)
  · rintro ((⟨token, htoken, hsame⟩ | hfits) | hnamed)
    · exact .inl ⟨token, htoken, Text.lowercase_eq_of_eqIgnoreAsciiCase hsame⟩
    · exact .inr hfits
    · exact .inl hnamed

/-- **What is found and what tokens take for their names.**  A name is found
exactly if a token takes it or an exact token has its lower-case form.  So found
names are taken ones exactly if no exact token with that form goes without one
that takes the name, and they are where the name and the exact tokens have no
capitals beyond ASCII. -/
theorem names_found_and_names_taken (engine : Engine α) (name : String) :
    ((engine.findFilter? name).isSome = true ↔ ∃ f ∈ engine.filters,
      (f.token.captures? name).isSome = true ∨
        ∃ token, f.token = .exact token ∧ Text.lowercase token = Text.lowercase name) ∧
    (((engine.findFilter? name).isSome = true ↔
        ∃ f ∈ engine.filters, (f.token.captures? name).isSome = true) ↔
      ∀ f ∈ engine.filters, ∀ token, f.token = .exact token →
        Text.lowercase token = Text.lowercase name →
        ∃ g ∈ engine.filters, (g.token.captures? name).isSome = true) ∧
    (Text.IsPlain name →
      (∀ f ∈ engine.filters, ∀ token, f.token = .exact token → Text.IsPlain token) →
      ((engine.findFilter? name).isSome = true ↔
        ∃ f ∈ engine.filters, (f.token.captures? name).isSome = true)) := by
  have hagree : ((engine.findFilter? name).isSome = true ↔
        ∃ f ∈ engine.filters, (f.token.captures? name).isSome = true) ↔
      ∀ f ∈ engine.filters, ∀ token, f.token = .exact token →
        Text.lowercase token = Text.lowercase name →
        ∃ g ∈ engine.filters, (g.token.captures? name).isSome = true := by
    rw [findFilter?_isSome_iff]
    constructor
    · intro hsame f hf token htoken hname
      exact hsame.mp ⟨f, hf, .inr ⟨token, htoken, hname⟩⟩
    · intro htaken
      constructor
      · rintro ⟨f, hf, htakes | ⟨token, htoken, hname⟩⟩
        · exact ⟨f, hf, htakes⟩
        · exact htaken f hf token htoken hname
      · rintro ⟨f, hf, htakes⟩
        exact ⟨f, hf, .inl htakes⟩
  refine ⟨findFilter?_isSome_iff, hagree, fun hplain hplains => hagree.mpr ?_⟩
  intro f hf token htoken hname
  refine ⟨f, hf, ?_⟩
  rw [htoken, FilterToken.captures?_exact_isSome]
  exact ((hplains f hf token htoken).eqIgnoreAsciiCase_iff hplain).mpr hname

/-- A name with a letter beyond ASCII that is small on both sides. -/
theorem name_with_a_small_umlaut :
    Text.IsPlain "GRößE" ∧
      (∀ f ∈ (ofOffers [filterNamed "größe", sizeFamily]).filters, ∀ token,
        f.token = .exact token → Text.IsPlain token) ∧
      ((ofOffers [filterNamed "größe", sizeFamily]).findFilter? "GRößE").isSome = true ∧
      ∃ f ∈ (ofOffers [filterNamed "größe", sizeFamily]).filters,
        (f.token.captures? "GRößE").isSome = true := by
  have hname : Text.IsPlain "GRößE" := by
    unfold Text.IsPlain
    decide +kernel
  have htokens : ∀ f ∈ (ofOffers [filterNamed "größe", sizeFamily]).filters, ∀ token,
      f.token = .exact token → Text.IsPlain token := by
    have hfilters : (ofOffers [filterNamed "größe", sizeFamily]).filters =
        [filterNamed "größe", sizeFamily] := rfl
    rw [hfilters, List.forall_mem_cons, List.forall_mem_singleton]
    refine ⟨fun token htoken => ?_, fun token htoken => by cases htoken⟩
    obtain rfl : "größe" = token := FilterToken.exact.inj htoken
    unfold Text.IsPlain
    decide +kernel
  have hfound :
      ((ofOffers [filterNamed "größe", sizeFamily]).findFilter? "GRößE").isSome = true := by
    decide +kernel
  exact ⟨hname, htokens, hfound,
    ((names_found_and_names_taken _ "GRößE").2.2 hname htokens).mp hfound⟩

/-- **A name is found that no token takes**, because the capital letter is no
ASCII letter. -/
theorem name_with_a_capital_accent :
    ((ofOffers [filterNamed "É"]).findFilter? "é").isSome = true ∧
      ∀ f ∈ (ofOffers [filterNamed "É"]).filters, f.token.captures? "é" = none := by
  have hfilters : (ofOffers [filterNamed "É"]).filters = [filterNamed "É"] := rfl
  refine ⟨by decide +kernel, ?_⟩
  rw [hfilters, List.forall_mem_singleton]
  decide +kernel

end Engine

end FilterQuery
