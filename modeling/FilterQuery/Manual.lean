import FilterQuery.Text.Lowercase

/-!
# The manual

The pages that explain the query language to a reader at the command line.
-/

namespace FilterQuery.Manual

/-- A page of the manual. -/
inductive Topic where
  | grammar
  | operators
  | nested
  | options
  deriving DecidableEq, Inhabited, Repr

namespace Topic

/-- The topic that a name stands for, letters in any case and dashes as good as
underscores. -/
def ofName? (name : String) : Option Topic :=
  match (Text.lowercase name).map fun c => if c = '-' then '_' else c with
  | "syntax" => some grammar
  | "operators" | "ops" => some operators
  | "nested" | "nested_queries" | "aggregators" => some nested
  | "options" | "modes" => some options
  | _ => none

def lines : Topic → List String
  | grammar => [
    "SYNTAX - Words, Filters, and Combinators",
    "",
    "SEARCH WORDS",
    "  word",
    "    Matches records where any string field contains the word (case-insensitive).",
    "",
    "    Example:",
    "      Input:  [\x7b\"name\": \"big rock\"\x7d, \x7b\"name\": \"pebble\"\x7d]",
    "      Query:  rock",
    "      Output: [\x7b\"name\": \"big rock\"\x7d]",
    "",
    "  \"a phrase\"",
    "    Quoted text is searched as a single term, spaces included.",
    "",
    "  !word  !\"a phrase\"",
    "    Exact search: a string field must equal the text.",
    "",
    "FILTERS",
    "  name operator value",
    "    Compares the field `name` of each record with `value`. No spaces around the",
    "    operator.",
    "",
    "    Example:",
    "      Input:  [\x7b\"size\": 4\x7d, \x7b\"size\": 40\x7d]",
    "      Query:  size>=10",
    "      Output: [\x7b\"size\": 40\x7d]",
    "",
    "  name:\"quoted value\"",
    "    Quote values that contain spaces or parentheses.",
    "",
    "  #index=0",
    "    Every record also has an `#index` filter holding its position in the input.",
    "",
    "    Constraints:",
    "      - Unknown field names are errors",
    "      - A filter without a value (`size>=`) is an error",
    "      - Values that do not parse as the field's type are errors",
    "",
    "COMBINATORS",
    "  a b           Both (an implicit `and`)",
    "  a and b       Both",
    "  a or b        Either",
    "  -a            Not a (no space after `-`)",
    "  not a         Not a",
    "",
    "  Precedence: `not` binds tightest, then `and`, then `or`.",
    "",
    "    Example:",
    "      Query:  a or b c",
    "      Means:  a or (b and c)",
    "",
    "    Constraints:",
    "      - Keywords are case-insensitive",
    "      - A keyword without an operand is a syntax error",
    "",
    "GROUPS",
    "  (a or b) c",
    "    Parentheses override precedence. Empty groups are ignored; an unmatched",
    "    parenthesis is a syntax error.",
    "",
    "TOGGLES AND COMMENTS",
    "  +name         Collected as a toggle, never evaluated",
    "  // text       Comment until the end of the line"]
  | operators => [
    "OPERATORS - Comparison and Value Types",
    "",
    "BUILT-IN OPERATORS",
    "  :     Contains for strings, equal for everything else",
    "  =     Equal",
    "  !=    Not equal",
    "  <     Less than",
    "  >     Greater than",
    "  <=    Less than or equal",
    "  >=    Greater than or equal",
    "",
    "  Examples:",
    "    name:rock",
    "    name=\"big rock\"",
    "    size!=0",
    "    ratio<0.5",
    "",
    "  Constraints:",
    "    - String comparisons ignore case",
    "    - The longest operator wins: `a>=1` is `>=`, not `>` followed by `=1`",
    "",
    "VALUE TYPES",
    "  Each field is typed from the JSON values it holds across all records:",
    "",
    "    all booleans          boolean   (true / false)",
    "    all integers          integer",
    "    integers and floats   float",
    "    anything else         string    (numbers and booleans compared as text)",
    "",
    "  Numbers of different kinds compare exactly:",
    "",
    "    Input:  [\x7b\"size\": 3\x7d]",
    "    Query:  size=3.0",
    "    Output: [\x7b\"size\": 3\x7d]",
    "",
    "  Constraints:",
    "    - Records missing a field never match filters on it",
    "    - `size>=abc` on a numeric field is an error, not an empty result"]
  | nested => [
    "NESTED - Sub-queries, Set Operations, and Aggregators",
    "",
    "NESTED QUERIES",
    "  \x7bexpression\x7d",
    "    Runs `expression` over the same records and yields its matches.",
    "",
    "    Example:",
    "      Input:  [\x7b\"size\": 1\x7d, \x7b\"size\": 20\x7d]",
    "      Query:  \x7bsize>10\x7d",
    "      Output: [\x7b\"size\": 20\x7d]",
    "",
    "SET OPERATIONS",
    "  \x7ba\x7d \x7bb\x7d       Intersection of both result sets",
    "  \x7ba\x7d or \x7bb\x7d    Union of both result sets",
    "",
    "    Constraints:",
    "      - Results are deduplicated",
    "      - Nested queries cannot be mixed with plain filters in the same",
    "        combinator: `\x7ba\x7d size>1` is an error",
    "",
    "FILTERS OVER NESTED QUERIES",
    "  field:\x7bexpression\x7d",
    "    Matches records whose `field` equals the `field` of any record matched by",
    "    `expression`.",
    "",
    "    Example:",
    "      Input:  [\x7b\"kind\": \"rock\", \"size\": 40\x7d, " ++
      "\x7b\"kind\": \"rock\", \"size\": 2\x7d,",
    "               \x7b\"kind\": \"tree\", \"size\": 1\x7d]",
    "      Query:  kind:\x7bsize>10\x7d",
    "      Output: [\x7b\"kind\": \"rock\", \"size\": 40\x7d, " ++
      "\x7b\"kind\": \"rock\", \"size\": 2\x7d]",
    "",
    "AGGREGATORS",
    "  first\x7bexpression\x7d    First match only",
    "  last\x7bexpression\x7d     Last match only",
    "  max\x7bexpression\x7d      Match with the largest --order-by field",
    "  min\x7bexpression\x7d      Match with the smallest --order-by field",
    "",
    "    Constraints:",
    "      - Unknown aggregator names are errors",
    "      - max and min exist only when --order-by is given"]
  | options => [
    "OPTIONS - Modes and Flags",
    "",
    "EVALUATION MODES",
    "  strict (default)",
    "    Output holds each match once.",
    "",
    "  --aligned",
    "    Fast-yielding mode: one output slot per input record, `null` where the record",
    "    did not match. Set operations emit one slot per element pulled from either",
    "    side.",
    "",
    "    Example:",
    "      Input:    [\x7b\"size\": 1\x7d, \x7b\"size\": 20\x7d]",
    "      Command:  sift check --aligned 'size>10'",
    "      Output:   [null, \x7b\"size\": 20\x7d]",
    "",
    "OPTIMIZATION",
    "  --optimize",
    "    Pushes negations inside `and`/`or` (De Morgan), moves negated operands to the",
    "    right, and removes double negations before evaluating. Results do not change.",
    "",
    "ORDERING",
    "  --order-by FIELD",
    "    Registers the max\x7b\x7d and min\x7b\x7d aggregators keyed on FIELD.",
    "",
    "SYNTAX CHECK",
    "  --syntax-only",
    "    Parses without input and prints the query graph. Only syntax errors are",
    "    reported.",
    "",
    "LOGGING",
    "  RUST_LOG=debug sift check ...",
    "    Prints parse summaries; `trace` adds optimizer rewrites."]

end Topic

/-- The text of a page, each line ended. -/
def page (lines : List String) : String :=
  String.join (lines.map (· ++ "\n"))

/-- The page that lists the topics. -/
def overview : String :=
  page [
    "SIFT DOCUMENTATION",
    "",
    "Sift filters JSON records with search-box style expressions: bare words, quoted",
    "phrases, typed field filters, boolean combinators, and nested sub-queries.",
    "",
    "DOCUMENTATION CATEGORIES",
    "",
    "  syntax            Words, phrases, filters, combinators, groups, toggles, comments",
    "  operators         Built-in operators and how values are typed",
    "  nested            Nested queries, set operations, and aggregators",
    "  options           Evaluation modes, optimization, and CLI flags",
    "",
    "QUICK REFERENCE",
    "",
    "  rock              Records with a string field containing \"rock\"",
    "  \"big rock\"        Phrase search",
    "  !rock             A string field equal to \"rock\"",
    "  size>=10          Field filter",
    "  a or b            Either side",
    "  -a / not a        Negation",
    "  (a or b) c        Grouping",
    "  \x7bsize>10\x7d         Nested query over the same records",
    "  name:\x7bsize>10\x7d    Field compared against nested matches",
    "",
    "Run 'sift doc <category>' for detailed documentation."]

/-- The page for the name of a topic, or what to say if there is none. -/
def find (name : String) : Except String String :=
  match Topic.ofName? name with
  | some topic => .ok (page topic.lines)
  | none => .error s!"Unknown category: '{name}'\nRun 'sift docs' to see available categories."

end FilterQuery.Manual
