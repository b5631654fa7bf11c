import FilterQuery.Proofs.Alphabets
import FilterQuery.Proofs.Occurrences
import FilterQuery.Proofs.Rejections

/-!
# The longest operator

The alphabet of an engine is the sorted list of the tokens of its operators: by
falling number of bytes, and among equally long ones by their bytes.  It depends
on which tokens are there, but not on the order in which they came, nor on the
calls that were rejected in between.  So the operator of a filter is the longest
that could stand where it does.
-/

namespace FilterQuery

namespace Text

/-- The bytes of a text. -/
def bytes (text : String) : List UInt8 := text.toByteArray.data.toList

/-- The bytes that encode characters. -/
def encoded (cs : List Char) : List UInt8 := cs.flatMap String.utf8EncodeChar

/-- The bytes of a text are those of its characters. -/
theorem bytes_eq (text : String) : bytes text = encoded text.toList := by
  rw [bytes, ← String.utf8Encode_toList, List.utf8Encode, encoded]
  simp

/-- Bytes are ordered as their numbers are. -/
theorem ofNat_lt_ofNat {n m : Nat} (hn : n < 256) (hm : m < 256) :
    UInt8.ofNat n < UInt8.ofNat m ↔ n < m := by
  rw [UInt8.lt_iff_toNat_lt, UInt8.toNat_ofNat_of_lt' hn, UInt8.toNat_ofNat_of_lt' hm]

/-- Bytes are the same if their numbers are. -/
theorem ofNat_eq_ofNat {n m : Nat} (hn : n < 256) (hm : m < 256) :
    UInt8.ofNat n = UInt8.ofNat m ↔ n = m := by
  rw [← UInt8.toNat_inj, UInt8.toNat_ofNat_of_lt' hn, UInt8.toNat_ofNat_of_lt' hm]

/-- **The encodings of characters stand in their order**, whatever follows
them. -/
theorem utf8EncodeChar_lt {a b : Char} (h : a.toNat < b.toNat) (as bs : List UInt8) :
    String.utf8EncodeChar a ++ as < String.utf8EncodeChar b ++ bs := by
  have hb : b.toNat < 0x110000 := by
    have hvalid := b.valid
    simp only [UInt32.isValidChar, Nat.isValidChar] at hvalid
    change b.val.toNat < _
    omega
  -- The bytes are digits in base 64 behind a mark, so the first difference decides.
  have hlead : ∀ n, n < 0x110000 → n / 262144 % 8 = n / 262144 := by omega
  have hdigit : ∀ n m : Nat, n < m → n / 64 < m / 64 ∨ n / 64 = m / 64 ∧ n % 64 < m % 64 := by
    omega
  have hleadA := hlead a.toNat (by omega)
  have hleadB := hlead b.toNat hb
  have hfourth := hdigit _ _ h
  have hthird := hdigit (a.toNat / 64) (b.toNat / 64)
  have hsecond := hdigit (a.toNat / 64 / 64) (b.toNat / 64 / 64)
  simp only [Nat.div_div_eq_div_mul, Nat.reduceMul] at hfourth hthird hsecond
  rw [String.utf8EncodeChar, String.utf8EncodeChar]
  simp only [Char.toNat_val, hleadA, hleadB]
  split_ifs
  all_goals try omega
  all_goals simp (disch := omega) only [List.cons_append, List.nil_append, List.cons_lt_cons_iff,
    ofNat_lt_ofNat, ofNat_eq_ofNat, Nat.add_lt_add_iff_right, Nat.add_right_cancel_iff]
  all_goals omega

/-- The same bytes in front do not matter to the order. -/
theorem append_lt_append {as bs bytes : List UInt8} : bytes ++ as < bytes ++ bs ↔ as < bs := by
  induction bytes with
  | nil => rfl
  | cons byte bytes ih => exact List.cons_lt_cons_self.trans ih

/-- The order of characters is reversed with them. -/
theorem compareChars_swap (as bs : List Char) :
    compareChars bs as = (compareChars as bs).swap := by
  induction as generalizing bs with
  | nil =>
      cases bs with
      | nil => rfl
      | cons b bs => rfl
  | cons a as ih =>
      cases bs with
      | nil => rfl
      | cons b bs => rw [compareChars, compareChars, Ordering.swap_then, Nat.compare_swap, ih]

/-- **Texts are ordered by characters as they are by bytes.** -/
theorem compareChars_eq_lt {as bs : List Char} :
    compareChars as bs = .lt ↔ encoded as < encoded bs := by
  induction as generalizing bs with
  | nil =>
      cases bs with
      | nil => exact iff_of_false nofun (List.lt_irrefl _)
      | cons b bs =>
          refine iff_of_true rfl ?_
          obtain ⟨byte, bytes, hbytes⟩ :=
            List.exists_cons_of_ne_nil (String.utf8EncodeChar_ne_nil (c := b))
          rw [encoded, encoded, List.flatMap_cons, hbytes]
          exact List.nil_lt_cons _ _
  | cons a as ih =>
      cases bs with
      | nil => exact iff_of_false nofun (List.not_lt_nil _)
      | cons b bs =>
          have hencoded : ∀ c cs, encoded (c :: cs) = String.utf8EncodeChar c ++ encoded cs :=
            fun _ _ => List.flatMap_cons
          rw [compareChars, hencoded, hencoded]
          rcases Nat.lt_trichotomy a.toNat b.toNat with hlt | heq | hgt
          · rw [Nat.compare_eq_lt.mpr hlt]
            exact iff_of_true rfl (utf8EncodeChar_lt hlt _ _)
          · obtain rfl : a = b := Char.toNat_inj.mp heq
            rw [Nat.compare_eq_eq.mpr rfl]
            exact ih.trans append_lt_append.symm
          · rw [Nat.compare_eq_gt.mpr hgt]
            exact iff_of_false nofun (List.lt_asymm (utf8EncodeChar_lt hgt _ _))

/-- **Texts stand in the order of their bytes.** -/
theorem compareChars_ne_gt {s t : String} :
    compareChars s.toList t.toList ≠ .gt ↔ bytes s ≤ bytes t := by
  have hgt : compareChars s.toList t.toList = .gt ↔ compareChars t.toList s.toList = .lt := by
    rw [compareChars_swap s.toList, Ordering.swap_eq_lt]
  rw [ne_eq, hgt, compareChars_eq_lt, bytes_eq, bytes_eq]
  exact List.not_lt

end Text

namespace OperatorTable

/-- The tokens of the operators, in order of registration. -/
def tokens (table : OperatorTable) : List String := table.operators.map (·.token)

/-- The tokens are those that the table contains. -/
theorem mem_tokens {table : OperatorTable} {token : String} :
    token ∈ table.tokens ↔ table.contains token = true := by
  rw [← mem_alphabet_iff_contains, mem_alphabet, tokens, List.mem_map]

/-- A longer token comes first, and of two equally long ones the one with the
lesser bytes. -/
def ComesBefore (a b : String) : Prop :=
  b.utf8ByteSize < a.utf8ByteSize ∨
    a.utf8ByteSize = b.utf8ByteSize ∧ Text.bytes a ≤ Text.bytes b

/-- What the table puts first comes before. -/
theorem tokenBefore_iff {a b : String} : tokenBefore a b = true ↔ ComesBefore a b := by
  rw [tokenBefore, ComesBefore, ← Text.compareChars_ne_gt]
  simp

namespace ComesBefore

variable {a b c : String}

/-- Of two tokens one comes before the other. -/
theorem total (a b : String) : ComesBefore a b ∨ ComesBefore b a := by
  rcases Nat.lt_trichotomy a.utf8ByteSize b.utf8ByteSize with hlt | heq | hgt
  · exact .inr (.inl hlt)
  · rcases List.le_total (Text.bytes a) (Text.bytes b) with hle | hle
    · exact .inl (.inr ⟨heq, hle⟩)
    · exact .inr (.inr ⟨heq.symm, hle⟩)
  · exact .inl (.inl hgt)

/-- What comes before is transitive. -/
theorem trans (hab : ComesBefore a b) (hbc : ComesBefore b c) : ComesBefore a c := by
  rcases hab with hab | ⟨hab, hbytes⟩
  · rcases hbc with hbc | ⟨hbc, -⟩
    · exact .inl (Nat.lt_trans hbc hab)
    · exact .inl (hbc ▸ hab)
  · rcases hbc with hbc | ⟨hbc, hbytes'⟩
    · exact .inl (hab ▸ hbc)
    · exact .inr ⟨hab.trans hbc, List.le_trans hbytes hbytes'⟩

/-- Tokens that come before each other are the same. -/
theorem antisymm (hab : ComesBefore a b) (hba : ComesBefore b a) : a = b := by
  rcases hab with hab | ⟨hsize, hab⟩
  · rcases hba with hba | ⟨hba, -⟩
    · exact absurd hba (Nat.lt_asymm hab)
    · exact absurd hba.symm (Nat.ne_of_gt hab)
  · rcases hba with hba | ⟨-, hba⟩
    · exact absurd hsize (Nat.ne_of_lt hba)
    · have hbytes : Text.bytes a = Text.bytes b := List.le_antisymm hab hba
      exact String.toByteArray_inj.mp (ByteArray.ext (Array.toList_inj.mp hbytes))

end ComesBefore

instance : Std.Total ComesBefore := ⟨ComesBefore.total⟩

instance : IsTrans String ComesBefore := ⟨fun _ _ _ => ComesBefore.trans⟩

instance : DecidableRel ComesBefore := fun _ _ => decidable_of_iff _ tokenBefore_iff

/-- A token is put into its place in the order. -/
theorem insertToken_eq (token : String) (ts : List String) :
    insertToken token ts = ts.orderedInsert ComesBefore token := by
  induction ts with
  | nil => rfl
  | cons t ts ih =>
      rw [insertToken, List.orderedInsert, ih]
      simp only [tokenBefore_iff]

/-- The alphabet is the sorted list of tokens. -/
theorem alphabet_eq_sort (table : OperatorTable) :
    table.alphabet = table.tokens.insertionSort ComesBefore := by
  rw [alphabet, tokens]
  induction table.operators.map (·.token) with
  | nil => rfl
  | cons token tokens ih => rw [List.foldr_cons, ih, insertToken_eq, List.insertionSort_cons]

/-- The alphabet lists each token as often as the table. -/
theorem alphabet_perm (table : OperatorTable) : table.alphabet.Perm table.tokens := by
  rw [alphabet_eq_sort]
  exact List.perm_insertionSort _ _

/-- Of the alphabet each token comes before all later ones. -/
theorem alphabet_pairwise (table : OperatorTable) : table.alphabet.Pairwise ComesBefore := by
  rw [alphabet_eq_sort]
  exact List.pairwise_insertionSort _ _

/-- **Tables with the same tokens have the same alphabet.** -/
theorem alphabet_of_same_tokens {table table' : OperatorTable} (h : table.tokens.Nodup)
    (h' : table'.tokens.Nodup) (hsame : ∀ token, token ∈ table.tokens ↔ token ∈ table'.tokens) :
    table.alphabet = table'.alphabet := by
  have hperm : table.alphabet.Perm table'.alphabet :=
    (table.alphabet_perm.trans ((List.perm_ext_iff_of_nodup h h').mpr hsame)).trans
      table'.alphabet_perm.symm
  exact hperm.eq_of_pairwise (fun _ _ _ _ => ComesBefore.antisymm) table.alphabet_pairwise
    table'.alphabet_pairwise

theorem tokens_builtin_nodup : builtin.tokens.Nodup := by decide +kernel

/-- A token comes in at the end, unless it is there. -/
theorem insert?_tokens (table : OperatorTable) (op : Operator) :
    op.token ∈ table.tokens ∧ table.insert? op = none ∨
      op.token ∉ table.tokens ∧
        ∃ table', table.insert? op = some table' ∧ table'.tokens = table.tokens ++ [op.token] := by
  rw [mem_tokens]
  rcases table.insert?_cases op with ⟨hinsert, htaken⟩ | ⟨table', hinsert, hoperators, hfree⟩
  · exact .inl ⟨htaken, hinsert⟩
  · refine .inr ⟨ne_true_of_eq_false hfree, table', hinsert, ?_⟩
    rw [tokens, hoperators, List.map_append]
    rfl

end OperatorTable

/-- Tokens that operators may have are those that registration lets through. -/
theorem isOperatorToken_iff {token : String} :
    IsOperatorToken token ↔ (token.isEmpty || token.toList.any Engine.isReserved) = false := by
  rw [Bool.or_eq_false_iff, List.any_eq_false]
  constructor
  · intro h
    refine ⟨?_, fun c hc => by rw [h.unreserved c hc]; decide⟩
    simpa [String.isEmpty_iff] using h.nonempty
  · rintro ⟨hempty, hreserved⟩
    refine ⟨by simpa [String.isEmpty_iff] using hempty, fun c hc => ?_⟩
    exact eq_false_of_ne_true (hreserved c hc)

namespace Engine

variable {α : Type}

/-- **What one call of `addOperator` does to the tokens**: a new one comes in if
it is a token that operators may have, and otherwise nothing changes. -/
theorem register_operator (engine : Engine α) (token : String) :
    IsOperatorToken token ∧ token ∉ engine.operators.tokens ∧
        (engine.register (.operator token)).1.operators.tokens =
          engine.operators.tokens ++ [token] ∨
      (IsOperatorToken token → token ∈ engine.operators.tokens) ∧
        (engine.register (.operator token)).1 = engine := by
  rw [isOperatorToken_iff, register, addOperator]
  cases hvalid : token.isEmpty || token.toList.any isReserved with
  | true => exact .inr ⟨fun hfalse => Bool.noConfusion hfalse, rfl⟩
  | false =>
      have hlexicon : engine.lexicon.insert? { token } =
          (engine.operators.insert? { token }).map Lexicon.ofTable := rfl
      rw [hlexicon]
      rcases engine.operators.insert?_tokens { token } with
        ⟨htaken, hinsert⟩ | ⟨hfree, table, hinsert, htokens⟩
      · rw [hinsert]
        exact .inr ⟨fun _ => htaken, rfl⟩
      · rw [hinsert]
        exact .inl ⟨rfl, hfree, htokens⟩

/-- One step keeps the tokens different. -/
theorem Step.tokens_nodup {engine engine' : Engine α} (h : Step engine engine')
    (hnodup : engine.operators.tokens.Nodup) : engine'.operators.tokens.Nodup := by
  cases h with
  | filter f =>
      unfold addFilter
      split
      · exact hnodup
      · exact hnodup
  | @operator _ token free h =>
      have hregister : (engine.register (.operator token)).1 = engine' := by
        rw [register, h]
        rfl
      rw [← hregister]
      rcases engine.register_operator token with ⟨-, hfree, htokens⟩ | ⟨-, hsame⟩
      · rw [htokens]
        rw [← List.concat_eq_append]
        exact hnodup.concat hfree
      · rwa [hsame]
  | handler h =>
      unfold addHandler at h
      split at h
      · cases h
      · next hmodify =>
          cases h
          rwa [OperatorTable.tokens, operators,
            OperatorTable.map_token_modify? (Lexicon.addHandler?_eq_some hmodify)]
  | parser type parser => exact hnodup
  | aggregator name a =>
      unfold addAggregator
      split
      · exact hnodup
      · exact hnodup
  | settings => exact hnodup

/-- **No two operators have the same token**, whatever has been registered. -/
theorem Reachable.tokens_nodup {engine : Engine α} (h : engine.Reachable) :
    engine.operators.tokens.Nodup := by
  induction h with
  | new => exact OperatorTable.tokens_builtin_nodup
  | step _ hstep ih => exact hstep.tokens_nodup ih

/-- Offers tokens one after the other. -/
def addOperators (engine : Engine α) : List String → Engine α
  | [] => engine
  | token :: offered => ((engine.register (.operator token)).1).addOperators offered

/-- Offering tokens leads to reachable engines. -/
theorem Reachable.addOperators {engine : Engine α} (h : engine.Reachable) (offered : List String) :
    (engine.addOperators offered).Reachable := by
  induction offered generalizing engine with
  | nil => exact h
  | cons token offered ih => exact ih (h.register (.operator token))

/-- **The tokens behind a run of calls** are those in front of it, and the
offered ones that operators may have. -/
theorem mem_tokens_addOperators (engine : Engine α) (offered : List String) (token : String) :
    token ∈ (engine.addOperators offered).operators.tokens ↔
      token ∈ engine.operators.tokens ∨ token ∈ offered ∧ IsOperatorToken token := by
  induction offered generalizing engine with
  | nil => simp [Engine.addOperators]
  | cons first offered ih =>
      rw [Engine.addOperators, ih, List.mem_cons]
      rcases engine.register_operator first with ⟨hvalid, -, htokens⟩ | ⟨htaken, hsame⟩
      · rw [htokens, List.mem_append, List.mem_singleton]
        constructor
        · rintro ((hmem | rfl) | ⟨hmem, htoken⟩)
          · exact .inl hmem
          · exact .inr ⟨.inl rfl, hvalid⟩
          · exact .inr ⟨.inr hmem, htoken⟩
        · rintro (hmem | ⟨rfl | hmem, htoken⟩)
          · exact .inl (.inl hmem)
          · exact .inl (.inr rfl)
          · exact .inr ⟨hmem, htoken⟩
      · rw [hsame]
        constructor
        · rintro (hmem | ⟨hmem, htoken⟩)
          · exact .inl hmem
          · exact .inr ⟨.inr hmem, htoken⟩
        · rintro (hmem | ⟨rfl | hmem, htoken⟩)
          · exact .inl hmem
          · exact .inl (htaken htoken)
          · exact .inr ⟨hmem, htoken⟩

end Engine

namespace Lexeme

open Text (byteLength)

/-- The token is the longest of those that the characters begin with. -/
def IsLongest (tokens : List String) (cs : List Char) (op : String) : Prop :=
  op ∈ tokens ∧ op.toList <+: cs ∧
    ∀ token ∈ tokens, token.toList <+: cs → token.utf8ByteSize ≤ op.utf8ByteSize

/-- Right behind the name and the parameter of the filter the text goes on with
its operator, and with no longer token. -/
def HasLongestOperator (tokens : List String) (text : String) (f : FilterExpression)
    (place : Token) : Prop :=
  ∃ before head rest, text.toList = before ++ head ++ rest ∧ byteLength before = place.position ∧
    IsHead f head ∧ IsLongest tokens rest f.operator

/-- A filter that is scanned has the longest operator that fits. -/
theorem hasLongestOperator {alphabet : List String} (hlongest : IsLongestFirst alphabet)
    (hclose : ∀ op ∈ alphabet, ')' ∉ op.toList) {text : String} {ls : List Lexeme}
    (hscan : scan alphabet text = .ok ls) {f : FilterExpression} {block : Option NestedBlock}
    {place : Token} (hl : Occurs (.filter f block place) ls) :
    HasLongestOperator alphabet text f place := by
  have hsingle : ∀ inner token, Lexeme.filter f block place ≠ .group inner token := by
    intro inner token heq
    cases heq
  obtain ⟨front, range, behind, after, htext, hfinds, hafter⟩ := finds_of_scan hscan hsingle hl
  obtain ⟨value, head, rest, -, hfilter⟩ := hfinds.isFilter rfl
  obtain ⟨_, valueText, hoperator, -⟩ := hfilter.operator
  have hplace : place = tokenBefore (byteLength front) range behind := hfinds.token_eq
  have hwhole : operator? alphabet (rest ++ after) = some (f.operator, valueText ++ after) := by
    rw [hafter.operator?_append hclose, hoperator]
    rfl
  obtain ⟨hop, hrest, hmax⟩ := (operator?_eq_longest hlongest).mp hwhole
  refine ⟨front, head, rest ++ after, ?_, by rw [hplace]; rfl, hfilter.head, hop, ?_, hmax⟩
  · rw [htext, hfilter.text]
    simp
  · rw [hrest]
    exact List.prefix_append _ _

end Lexeme

namespace Engine

open Lexeme

variable {α : Type}

/-- **Operators are matched longest first**, whatever has been registered.
Behind a run of calls of `addOperator` on an engine the alphabet is the sorted
list of the registered tokens, the operator of each filter in a text is the
longest of them that could stand there, and engines with the same tokens have
the same alphabet and scan every text in the same way. -/
theorem operators_are_matched_longest_first {engine : Engine α} (hengine : engine.Reachable)
    (offered : List String) :
    let engine' := engine.addOperators offered
    let tokens := engine'.operators.tokens
    (∀ token, token ∈ tokens ↔
        token ∈ engine.operators.tokens ∨ token ∈ offered ∧ IsOperatorToken token) ∧
      tokens.Nodup ∧ engine'.alphabet.Perm tokens ∧
      engine'.alphabet.Pairwise OperatorTable.ComesBefore ∧
      (∀ text ls, scan engine'.alphabet text = .ok ls →
        ∀ f block place, Occurs (.filter f block place) ls →
          HasLongestOperator tokens text f place) ∧
      ∀ (β : Type) (other : Engine β), other.Reachable →
        (∀ token, token ∈ other.operators.tokens ↔ token ∈ tokens) →
        other.alphabet = engine'.alphabet ∧
          ∀ text, scan other.alphabet text = scan engine'.alphabet text := by
  intro engine' tokens
  have hreachable : engine'.Reachable := hengine.addOperators offered
  have halphabet : engine'.alphabet = engine'.operators.alphabet := engine'.alphabet_eq
  have hperm : engine'.alphabet.Perm tokens := by
    rw [halphabet]
    exact OperatorTable.alphabet_perm _
  refine ⟨engine.mem_tokens_addOperators offered, hreachable.tokens_nodup, hperm, ?_, ?_, ?_⟩
  · rw [halphabet]
    exact OperatorTable.alphabet_pairwise _
  · intro text ls hscan f block place hl
    have hlongest : IsLongestFirst engine'.alphabet := by
      rw [halphabet]
      exact alphabet_isLongestFirst _
    have hclose : ∀ op ∈ engine'.alphabet, ')' ∉ op.toList := fun op hop =>
      (hreachable.isOperatorToken hop).not_mem rfl
    obtain ⟨before, head, rest, htext, hplace, hhead, hop, hprefix, hmax⟩ :=
      hasLongestOperator hlongest hclose hscan hl
    exact ⟨before, head, rest, htext, hplace, hhead, hperm.mem_iff.mp hop, hprefix,
      fun token htoken => hmax token (hperm.mem_iff.mpr htoken)⟩
  · intro β other hother hsame
    have hequal : other.alphabet = engine'.alphabet := by
      rw [other.alphabet_eq, halphabet]
      exact OperatorTable.alphabet_of_same_tokens hother.tokens_nodup hreachable.tokens_nodup hsame
    exact ⟨hequal, fun text => by rw [hequal]⟩

/-- The operators `=:`, `::` and `::=` beside the built-in ones, once with a
repetition and a token that is rejected, and once in another order: `a::=b` is
read with the longest of three that fit. -/
theorem operators_of_two_histories :
    let engine := ({} : Engine Nat).addOperators ["=:", "::", "a b", "=", "::", "::="]
    let other := ({} : Engine String).addOperators ["::=", "=:", "::"]
    HasLongestOperator engine.operators.tokens "a::=b"
        { name := "a", operator := "::=", value := "b" } ⟨"a::=b", 0, 5⟩ ∧
      other.alphabet = engine.alphabet := by
  intro engine other
  obtain ⟨-, -, -, -, hlongest, hsame⟩ := operators_are_matched_longest_first
    (.new : ({} : Engine Nat).Reachable) ["=:", "::", "a b", "=", "::", "::="]
  have halphabet : engine.alphabet =
      ["::=", "!=", "::", "<=", "=:", ">=", ":", "<", "=", ">"] := by decide +kernel
  have hscan : scan engine.alphabet "a::=b" =
      .ok [.filter { name := "a", operator := "::=", value := "b" } none ⟨"a::=b", 0, 5⟩] := by
    rw [halphabet]
    rfl
  have htokens : other.operators.tokens.Perm engine.operators.tokens := by decide +kernel
  refine ⟨hlongest _ _ hscan _ _ _ (.here []), ?_⟩
  exact (hsame String other (Reachable.new.addOperators _) fun _ => htokens.mem_iff).1

end Engine

end FilterQuery
