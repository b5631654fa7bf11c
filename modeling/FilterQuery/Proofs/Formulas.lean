import FilterQuery.Proofs.Lowering
import FilterQuery.Proofs.Scanning
import FilterQuery.Query

/-!
# Formulas as queries

A formula is a boolean expression over the texts of filters.  Written out with a
pair of parentheses around every connective, it scans to lexemes that the
grammar of queries derives, to a tree of the formula's shape with a group at
each pair of parentheses.
-/

namespace FilterQuery

open FilterQuery.Graph Grammar Lexeme
open Text (byteLength)

/-- What joins two formulas. -/
inductive Connective where
  | and
  | or
  deriving DecidableEq, Inhabited, Repr

namespace Connective

def keyword : Connective → String
  | and => "and"
  | or => "or"

def kind : Connective → NodeKind
  | and => .and
  | or => .or

def lexeme : Connective → Token → Lexeme
  | and => .and
  | or => .or

def apply : Connective → Bool → Bool → Bool
  | and => (· && ·)
  | or => (· || ·)

end Connective

inductive Formula where
  /-- The text of a filter. -/
  | leaf (text : String)
  | not (x : Formula)
  | pair (c : Connective) (x y : Formula)
  deriving DecidableEq, Inhabited, Repr

namespace Formula

def leaves : Formula → List String
  | leaf text => [text]
  | not x => x.leaves
  | pair _ x y => x.leaves ++ y.leaves

/-- The text of a formula. -/
def render : Formula → String
  | leaf text => text
  | not x => "-(" ++ x.render ++ ")"
  | pair c x y => "(" ++ x.render ++ " " ++ c.keyword ++ " " ++ y.render ++ ")"

/-- The formula is true if its leaves are as given. -/
def eval (truth : String → Bool) : Formula → Bool
  | leaf text => truth text
  | not x => !x.eval truth
  | pair c x y => c.apply (x.eval truth) (y.eval truth)

/-- The characters of the text of a formula. -/
def chars (x : Formula) : List Char := x.render.toList

@[simp] theorem chars_leaf (text : String) : (leaf text).chars = text.toList := rfl

/-- A negation is written as a minus sign in front of parentheses. -/
theorem chars_not (x : Formula) : (not x).chars = '-' :: ('(' :: x.chars ++ [')']) := by
  simp [chars, render]

/-- The characters between the parentheses around two formulas. -/
def inside (c : Connective) (x y : Formula) : List Char :=
  x.chars ++ (' ' :: (c.keyword.toList ++ (' ' :: y.chars)))

/-- A formula of two operands is written in parentheses. -/
theorem chars_pair (c : Connective) (x y : Formula) :
    (pair c x y).chars = '(' :: inside c x y ++ [')'] := by
  simp [chars, render, inside]

end Formula

/-- The text is one filter by itself, and a query that means something. -/
structure Engine.IsLeaf {α : Type} (engine : Engine α) (text : String) : Prop where
  plain : ∀ c ∈ text.toList, isWordChar c = true
  single : ∃ f block token, scan engine.alphabet text = .ok [.filter f block token]
  valid : (engine.parse text).isValid = true

namespace Formula

/-- The tree says what the formula does, with groups around trees if it is the
tree of a text. -/
inductive Says {α : Type} (engine : Engine α) (grouped : Bool) : Formula → Tree Content → Prop where
  | leaf {text : String} {f : FilterExpression} {block : Option NestedBlock} {alone token : Token}
      (h : scan engine.alphabet text = .ok [.filter f block alone]) (htext : token.text = text) :
      Says engine grouped (.leaf text) (.leaf ⟨.filter f, token⟩)
  | not {x : Formula} {t : Tree Content} (token : Token) (h : Says engine grouped x t) :
      Says engine grouped (.not x) (.node ⟨.not, token⟩ [t])
  | pair (c : Connective) {x y : Formula} {t u : Tree Content} (token : Token)
      (hx : Says engine grouped x t) (hy : Says engine grouped y u) :
      Says engine grouped (.pair c x y) (.node ⟨c.kind, token⟩ [t, u])
  | group {x : Formula} {t : Tree Content} (hgrouped : grouped = true) (token : Token)
      (h : Says engine grouped x t) : Says engine grouped x (.node ⟨.group, token⟩ [t])

section Scan

variable {α : Type} {engine : Engine α}

/-- The two operands are balanced within the parentheses. -/
theorem isBalanced_inside {x y : Formula} (c : Connective) (hx : IsBalanced x.chars)
    (hy : IsBalanced y.chars) : IsBalanced (inside c x y) := by
  have hblank : IsBalanced [' '] := .plain (List.all_eq_true.mp rfl)
  have hkeyword : IsBalanced c.keyword.toList := .plain (List.all_eq_true.mp (by cases c <;> rfl))
  exact hx.append (hblank.append (hkeyword.append (hblank.append hy)))

/-- A formula is balanced if its leaves are plain. -/
theorem isBalanced_chars {x : Formula} (h : ∀ text ∈ x.leaves, IsPlain text.toList) :
    IsBalanced x.chars := by
  induction x with
  | leaf text => exact (h text (by simp [leaves])).isBalanced
  | not x ih =>
      have hdash : IsBalanced ['-'] := .plain (List.all_eq_true.mp rfl)
      rw [chars_not]
      exact hdash.append (ih h).group
  | pair c x y ihx ihy =>
      rw [chars_pair]
      refine (isBalanced_inside c (ihx fun text ht => ?_) (ihy fun text ht => ?_)).group
      · exact h text (List.mem_append_left _ ht)
      · exact h text (List.mem_append_right _ ht)

/-- A connective between blanks. -/
theorem scanFrom_connective {alphabet : List String} (c : Connective) {fuel position : Nat}
    {cs : List Char} {ls : List Lexeme}
    (h : scanFrom alphabet fuel (position + byteLength c.keyword.toList + 2) cs = .ok ls) :
    scanFrom alphabet (fuel + 3) position (' ' :: (c.keyword.toList ++ ' ' :: cs)) =
      .ok (c.lexeme (Token.ofChars (position + 1) c.keyword.toList) :: ls) := by
  have hcombinator : combinator? (c.keyword.toList ++ ' ' :: cs) = some (c.lexeme, ' ' :: cs) := by
    cases c <;> rfl
  obtain ⟨d, ds, hds, hd⟩ : ∃ d ds, c.keyword.toList = d :: ds ∧ isWordChar d = true := by
    cases c
    · exact ⟨'a', ['n', 'd'], rfl, by decide⟩
    · exact ⟨'o', ['r'], rfl, by decide⟩
  have hsingle : single? alphabet (position + 1) (c.keyword.toList ++ ' ' :: cs) = _ :=
    single?_of_combinator hcombinator
  rw [tokenBefore_append] at hsingle
  have hstop : (c.lexeme (Token.ofChars (position + 1) c.keyword.toList)).token.stop =
      position + 1 + byteLength c.keyword.toList := by
    cases c <;> rfl
  rw [scanFrom_blank (by decide)]
  rw [hds] at hsingle ⊢
  refine scanFrom_single hd hsingle ?_
  have hsize : ' '.utf8Size = 1 := rfl
  rw [← hds, hstop, scanFrom_blank (by decide), ← h, hsize]
  congr 1
  omega

/-- What scanning gives for the characters of a formula at a place: the lexemes
of a tree that says what the formula does, in front of those of what follows.
It takes as many steps as given. -/
def ScansAt (engine : Engine α) (text : String) (x : Formula) (cs : List Char) (steps : Nat)
    (position : Nat) : Prop :=
  ∃ ls t, ls ≠ [] ∧ Negation text ls t ∧ Says engine true x t ∧
    engine.knowledge.faultsOf ls = [] ∧
    ∀ (fuel : Nat) (rest : List Char) (behind : List Lexeme),
      Ends ' ' rest → cs.length ≤ fuel + steps →
      scanFrom engine.alphabet fuel (position + byteLength cs) rest = .ok behind →
      scanFrom engine.alphabet (fuel + steps) position (cs ++ rest) = .ok (ls ++ behind)

/-- A leaf is scanned as the filter that it is. -/
theorem scansAt_leaf (halphabet : ∀ op ∈ engine.alphabet, IsOperatorToken op)
    {text leafText : String} {f : FilterExpression} {block : Option NestedBlock} {alone : Token}
    (hplain : IsPlain leafText.toList)
    (hscan : scan engine.alphabet leafText = .ok [.filter f block alone])
    (hjudge : (engine.judge f false).cause = none) (position : Nat) :
    ScansAt engine text (.leaf leafText) leafText.toList 1 position := by
  obtain ⟨rfl, hcombinator, hfilter⟩ := plainFilter?_of_scan halphabet hplain hscan
  let token := Token.ofChars position leafText.toList
  have htext : token.text = leafText := String.ofList_toList
  refine ⟨[.filter f none token], _, by simp, .operand (.filter f token), .leaf hscan htext, ?_, ?_⟩
  · have hcause : (engine.knowledge.judge f false).cause = none := hjudge
    simp [Knowledge.faultsOf, Knowledge.faults, Knowledge.filterFaults, hcause]
  · intro fuel rest behind hrest _ hbehind
    have hsingle : single? engine.alphabet position (leafText.toList ++ rest) =
        .ok (some (.filter f none token, rest)) :=
      hrest.single?_append halphabet hplain hcombinator hfilter
    have hstop : token.stop = position + byteLength leafText.toList := rfl
    rw [← hstop] at hbehind
    -- A filter has a name, so that the text is not empty.
    generalize leafText.toList = cs at hplain hfilter hsingle ⊢
    cases cs with
    | nil => cases hfilter
    | cons c cs => exact scanFrom_single (hplain c List.mem_cons_self) hsingle hbehind

/-- Balanced text between parentheses. -/
theorem scansAt_group {text : String} {x : Formula} {inside : List Char} {position : Nat}
    {inner : List Lexeme} {t : Tree Content} (hbalanced : IsBalanced inside)
    (hfilled : inner ≠ []) (hderived : Disjunction text inner t) (hsaid : Says engine true x t)
    (hfaults : engine.knowledge.faultsOf inner = [])
    (hinner : ∀ fuel, inside.length + 1 ≤ fuel →
      scanFrom engine.alphabet fuel (position + 1) inside = .ok inner) :
    ScansAt engine text x ('(' :: inside ++ [')']) 1 position := by
  let token := Token.ofChars position ('(' :: inside ++ [')'])
  refine ⟨[.group inner token], _, by simp, .operand (.group token hderived),
    .group rfl token hsaid, ?_, fun fuel rest behind _ hlength hbehind => ?_⟩
  · simp [Knowledge.faultsOf, Knowledge.faults, hfaults]
  · refine scanFrom_group hbalanced (hinner fuel ?_) hfilled hbehind
    simpa using hlength

/-- A minus sign in front of a pair of parentheses. -/
theorem ScansAt.not {text : String} {x : Formula} {cs : List Char} {steps position : Nat}
    (h : ScansAt engine text x ('(' :: cs) steps (position + 1)) :
    ScansAt engine text (.not x) ('-' :: '(' :: cs) (steps + 1) position := by
  obtain ⟨ls, t, -, hderived, hsaid, hfaults, hscan⟩ := h
  let token := Token.ofChars position ['-']
  refine ⟨.not token :: ls, _, by simp, .not token hderived, .not token hsaid, ?_,
    fun fuel rest behind hrest hlength hbehind => ?_⟩
  · simpa [Knowledge.faultsOf, Knowledge.faults] using hfaults
  · have hcombinator : combinator? ('-' :: '(' :: (cs ++ rest)) =
        some (.not, '(' :: (cs ++ rest)) := rfl
    have hsingle : single? engine.alphabet position ('-' :: '(' :: (cs ++ rest)) = _ :=
      single?_of_combinator hcombinator
    have htoken : tokenBefore position ('-' :: '(' :: (cs ++ rest)) ('(' :: (cs ++ rest)) = token :=
      tokenBefore_append position ['-'] _
    rw [htoken] at hsingle
    refine scanFrom_single (by decide) hsingle (hscan fuel rest behind hrest ?_ ?_)
    · exact Nat.le_of_succ_le_succ hlength
    · rw [← hbehind]
      congr 1
      exact Nat.add_assoc ..

/-- The steps that the lexemes of a formula take. -/
def steps : Formula → Nat
  | leaf _ => 1
  | not _ => 2
  | pair .. => 1

/-- A formula takes no more steps than it has characters, and one more. -/
theorem steps_le (x : Formula) : x.steps ≤ 2 ∧ x.steps ≤ x.chars.length + 1 := by
  cases x with
  | leaf text => exact ⟨Nat.le_succ 1, Nat.le_add_left ..⟩
  | not x =>
      rw [chars_not]
      exact ⟨Nat.le_refl 2, by simp [steps]⟩
  | pair c x y => exact ⟨Nat.le_succ 1, Nat.le_add_left ..⟩

/-- Two formulas with a connective between them. -/
theorem ScansAt.pair {text : String} {x y : Formula} (c : Connective) {position : Nat}
    (hbalanced : IsBalanced (inside c x y))
    (hx : ScansAt engine text x x.chars x.steps (position + 1))
    (hy : ScansAt engine text y y.chars y.steps
      (position + 1 + byteLength x.chars + byteLength c.keyword.toList + 2)) :
    ScansAt engine text (.pair c x y) ('(' :: inside c x y ++ [')']) 1 position := by
  obtain ⟨ls, t, hls, hderived, hsaid, hfaults, hscan⟩ := hx
  obtain ⟨ls', t', -, hderived', hsaid', hfaults', hscan'⟩ := hy
  let token := Token.ofChars (position + 1 + byteLength x.chars + 1) c.keyword.toList
  have hpair : Disjunction text (ls ++ c.lexeme token :: ls') (.node ⟨c.kind, token⟩ [t, t']) := by
    cases c with
    | and => exact .single (.written token (.single hderived) hderived')
    | or => exact .or token (.single (.single hderived)) (.single hderived')
  have hclean : engine.knowledge.faultsOf (ls ++ c.lexeme token :: ls') = [] := by
    have hconnective : engine.knowledge.faults (c.lexeme token) = [] := by
      cases c <;> simp [Connective.lexeme, Knowledge.faults]
    rw [Knowledge.faultsOf_append, Knowledge.faultsOf, hfaults, hconnective, hfaults']
    rfl
  refine scansAt_group hbalanced (by simp) hpair (.pair c token hsaid hsaid') hclean
    fun fuel hfuel => ?_
  have hx := x.steps_le
  have hy := y.steps_le
  have hkeyword : 2 ≤ c.keyword.toList.length := by cases c <;> decide
  simp only [inside, List.length_append, List.length_cons] at hfuel
  obtain ⟨k, rfl⟩ : ∃ k, fuel = k + y.steps + 3 + x.steps :=
    ⟨fuel - x.steps - 3 - y.steps, by omega⟩
  have hright := hscan' k [] [] .nothing (by omega) (scanFrom_nil _ _)
  rw [List.append_nil, List.append_nil] at hright
  exact hscan (k + y.steps + 3) _ _ (.blank _) (by omega) (scanFrom_connective c hright)

/-- **The text of a formula scans to lexemes that say what the formula
does.** -/
theorem scansAt (halphabet : ∀ op ∈ engine.alphabet, IsOperatorToken op) (text : String)
    {x : Formula} (hplain : ∀ leafText ∈ x.leaves, IsPlain leafText.toList)
    (hleaf : ∀ leafText ∈ x.leaves, ∃ f block alone,
      scan engine.alphabet leafText = .ok [.filter f block alone] ∧
        (engine.judge f false).cause = none) (position : Nat) :
    ScansAt engine text x x.chars x.steps position := by
  induction x generalizing position with
  | leaf leafText =>
      obtain ⟨f, block, alone, hscan, hjudge⟩ := hleaf leafText (by simp [leaves])
      exact scansAt_leaf halphabet (hplain leafText (by simp [leaves])) hscan hjudge position
  | not x ih =>
      obtain ⟨ls, t, hls, hderived, hsaid, hfaults, hscan⟩ := ih hplain hleaf (position + 1 + 1)
      have hgroup : ScansAt engine text x ('(' :: x.chars ++ [')']) 1 (position + 1) := by
        refine scansAt_group (isBalanced_chars hplain) hls (.single (.single hderived)) hsaid
          hfaults fun fuel hfuel => ?_
        have hsteps := x.steps_le
        obtain ⟨k, rfl⟩ : ∃ k, fuel = k + x.steps := ⟨fuel - x.steps, by omega⟩
        simpa using hscan k [] [] .nothing (by omega) (scanFrom_nil _ _)
      rw [chars_not]
      exact hgroup.not
  | pair c x y ihx ihy =>
      have hleft : ∀ {leafText}, leafText ∈ x.leaves → leafText ∈ (pair c x y).leaves :=
        fun h => List.mem_append_left _ h
      have hright : ∀ {leafText}, leafText ∈ y.leaves → leafText ∈ (pair c x y).leaves :=
        fun h => List.mem_append_right _ h
      have hplainx := fun leafText h => hplain leafText (hleft h)
      have hplainy := fun leafText h => hplain leafText (hright h)
      rw [chars_pair]
      exact .pair c (isBalanced_inside c (isBalanced_chars hplainx) (isBalanced_chars hplainy))
        (ihx hplainx (fun leafText h => hleaf leafText (hleft h)) _)
        (ihy hplainy (fun leafText h => hleaf leafText (hright h)) _)

end Scan

end Formula

end FilterQuery
