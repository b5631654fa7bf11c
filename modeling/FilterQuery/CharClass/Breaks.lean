import FilterQuery.CharClass.Attributes
import FilterQuery.CharClass.Scripts

/-!
# Breaks in text

A text breaks up into what readers take for characters, into words and into
sentences.  Each of the three divisions gives every character a role in it.
Most roles follow from the categories, the attributes and the scripts; a table
adds what does not.  No character has two roles in a division, and those that
have none are in no class.
-/

namespace FilterQuery.CharClass

/-- The class of one code point. -/
def point (n : Nat) : CharClass := range n n

/-- Characters that stand in front of what they belong to, and are no
formats. -/
def leading : CharClass := ofTable "D4E 111C2-111C3 113D1 1193F 11941 11A3A 11A84-11A89 11D46 11F02"

/-- Marks and modifiers that extend the character in front of them. -/
def extending : CharClass := graphemeExtend.union (given "emod")

/-- Marks that extend a word or a sentence, also those that take room of their
own. -/
def accompanying : CharClass := graphemeExtend.union (within ["mc"])

/-- Formats that neither lead nor join. -/
def plainFormat : CharClass :=
  (within ["cf"]).difference ((given "pcm").union ((given "joinc").union graphemeExtend))

/-- What stands alone: line ends, controls, and formats without a role of their
own. -/
def standing : CharClass :=
  (((within ["zl", "zp", "cc"]).union (unassigned.inter (given "di"))).union plainFormat).difference
    (ofTable "A D")

/-- Marks that take room of their own, but belong to the character in front of
them. -/
def spacing : CharClass :=
  (((within ["mc"]).difference (ofTable
    "102B-102C 1038 1062-1064 1067-106D 1083 1087-108C 108F 109A-109C 1A61 1A63-1A64 AA7B AA7D
     11720-11721")).union (ofTable "E33 EB3")).difference extending

/-- Syllables without a final consonant: the first one of every 28. -/
def openSyllables : CharClass :=
  ⟨(List.range 399).map fun i => (0xAC00 + 28 * i, 0xAC00 + 28 * i)⟩

/-- Syllables with a final consonant: the others of every 28. -/
def closedSyllables : CharClass :=
  ⟨(List.range 399).map fun i => (0xAC01 + 28 * i, 0xAC1B + 28 * i)⟩

/-- The characters that have a role where a text breaks up into what readers
take for characters, by the normal name of the role. -/
def graphemeRole? (role : String) : Option CharClass :=
  match role with
  | "cr" => some (point 0xD)
  | "lf" => some (point 0xA)
  | "cn" | "control" => some standing
  | "ex" | "extend" => some extending
  | "zwj" => some (point 0x200D)
  | "ri" | "regionalindicator" => some (given "ri")
  | "pp" | "prepend" => some ((given "pcm").union leading)
  | "sm" | "spacingmark" => some spacing
  | "l" => some (ofTable "1100-115F A960-A97C")
  | "v" => some (ofTable "1160-11A7 D7B0-D7C6 16D63 16D67-16D6A")
  | "t" => some (ofTable "11A8-11FF D7CB-D7FB")
  | "lv" => some openSyllables
  | "lvt" => some closedSyllables
  | _ => none

/-- The characters of a script, by its short name. -/
def written (script : String) : CharClass := (script? script).getD empty

/-- Letters of scripts that put no blanks between words. -/
def withoutBlanks : CharClass :=
  ofTable
    "E01-E3A E40-E4E E81-E82 E84 E86-E8A E8C-EA3 EA5 EA7-EBD EC0-EC4 EC6 EC8-ECE EDC-EDF 1000-103F
     1050-108F 109A-109F 1780-17D3 17D7 17DC-17DD 1950-196D 1970-1974 1980-19AB 19B0-19C9 19DA
     19DE-19DF 1A20-1A5E 1A60-1A7C 1AA0-1AAD A9E0-A9EF A9FA-A9FE AA60-AAC2 AADB-AADF 11700-1171A
     1171D-1172B 1173A-1173B 1173F-11746"

def wordExtending : CharClass := accompanying.union (given "emod")

def katakana : CharClass :=
  ((written "kana").union (ofTable "3031-3035 309B-309C 30A0 30FC FF70")).difference wordExtending

def hebrewLetters : CharClass := (written "hebr").inter (within ["lo"])

/-- Letters of scripts that put blanks between words, and signs that words have
like letters. -/
def wordLetters : CharClass :=
  (alphabetic.union (ofTable
    "2C2-2C5 2D2-2D7 2DE-2DF 2E5-2EB 2ED 2EF-2FF 55A-55C 55E 58A 5F3 70F A708-A716 A720-A721
     A789-A78A AB5B")).difference
    (((given "ideo").union (withoutBlanks.union (written "hira"))).union
      (katakana.union (wordExtending.union hebrewLetters)))

/-- Decimal digits, and the formats that lead numbers. -/
def numeric : CharClass :=
  (within ["nd"]).union ((given "pcm").difference (point 0x70F))

/-- The characters that have a role where a text breaks up into words, by the
normal name of the role. -/
def wordRole? (role : String) : Option CharClass :=
  match role with
  | "cr" => some (point 0xD)
  | "lf" => some (point 0xA)
  | "nl" | "newline" => some (ofTable "B-C 85 2028-2029")
  | "extend" => some wordExtending
  | "zwj" => some (point 0x200D)
  | "fo" | "format" => some (plainFormat.difference (point 0x200B))
  | "ri" | "regionalindicator" => some (given "ri")
  | "ka" | "katakana" => some katakana
  | "hl" | "hebrewletter" => some hebrewLetters
  | "le" | "aletter" => some wordLetters
  | "sq" | "singlequote" => some (point 0x27)
  | "dq" | "doublequote" => some (point 0x22)
  | "mb" | "midnumlet" => some (ofTable "2E 2018-2019 2024 FE52 FF07 FF0E")
  | "ml" | "midletter" => some (ofTable "3A B7 387 55F 5F4 2027 FE13 FE55 FF1A")
  | "mn" | "midnum" =>
    some (ofTable "2C 3B 37E 589 60C-60D 66C 7F8 2044 FE10 FE14 FE50 FE54 FF0C FF1B")
  | "nu" | "numeric" => some (numeric.union (point 0x66B))
  | "ex" | "extendnumlet" => some ((within ["pc"]).union (point 0x202F))
  | "wsegspace" => some (ofTable "20 1680 2000-2006 2008-200A 205F 3000")
  | _ => none

def sentenceLower : CharClass :=
  lowercase.difference (graphemeExtend.union (ofTable "10D0-10FA 10FD-10FF"))

def sentenceUpper : CharClass :=
  (uppercase.union (within ["lt"])).difference (ofTable "1C90-1CBA 1CBD-1CBF")

/-- Full stops, which also stand behind shortened words. -/
def stops : CharClass := ofTable "2E 2024 FE52 FF0E"

/-- Characters that only stand at the end of a sentence. -/
def terminals : CharClass := (given "sterm").difference stops

/-- The characters that have a role where a text breaks up into sentences, by
the normal name of the role. -/
def sentenceRole? (role : String) : Option CharClass :=
  match role with
  | "cr" => some (point 0xD)
  | "lf" => some (point 0xA)
  | "se" | "sep" => some (ofTable "85 2028-2029")
  | "ex" | "extend" => some (accompanying.union (point 0x200D))
  | "fo" | "format" => some plainFormat
  | "sp" => some (blank.difference (ofTable "A D 85 2028-2029"))
  | "lo" | "lower" => some sentenceLower
  | "up" | "upper" => some sentenceUpper
  | "le" | "oletter" =>
    some ((alphabetic.union (ofTable "5F3 70F")).difference
      (sentenceLower.union (sentenceUpper.union accompanying)))
  | "nu" | "numeric" => some (numeric.union (ofTable "66B-66C"))
  | "at" | "aterm" => some stops
  | "st" | "sterm" => some terminals
  | "sc" | "scontinue" =>
    some (ofTable
      "2C-2D 3A-3B 37E 55D 60C-60D 7F8 1802 1808 2013-2014 3001 FE10-FE11 FE13-FE14 FE31-FE32
       FE50-FE51 FE54-FE55 FE58 FE63 FF0C-FF0D FF1A-FF1B FF64")
  | "cl" | "close" =>
    some ((within ["ps", "pe", "pi", "pf"]).union (ofTable
      "22 27 275B-2760 2E00-2E01 2E06-2E08 2E0B 1F676-1F678"))
  | _ => none

end FilterQuery.CharClass
