import FilterQuery.CharClass.Ages
import FilterQuery.CharClass.Breaks

/-!
# Classes by the name of a property

A class may be named by a category, a script or an attribute of characters, or
by a property and the value it has: category, script, age, or a role where texts
break up.  Names are the same if their normal forms are.
-/

namespace FilterQuery.CharClass

/-- The normal form of a name: without case, blanks, hyphens, underscores and
characters beyond ASCII, and without the word `is` in front.  The short name of
the other characters does not take that word. -/
def normalName (name : List Char) : String :=
  let (marked, rest) := match name with
    | i :: s :: rest => if i.toLower = 'i' && s.toLower = 's' then (true, rest) else (false, name)
    | _ => (false, name)
  let kept := (rest.filter fun c => c.toNat < 0x80 && c ∉ [' ', '_', '-']).map Char.toLower
  if marked && kept = ['c'] then "isc" else String.ofList kept

/-- The class that has a name of its own. -/
def ofName? (name : List Char) : Option CharClass :=
  let name := normalName name
  attribute? name <|> category? name <|> script? name

/-- The characters whose property has the value. -/
def ofValue? (property value : List Char) : Option CharClass :=
  let value := normalName value
  match normalName property with
  | "gc" | "generalcategory" => category? value
  | "sc" | "script" => script? value
  | "scx" | "scriptextensions" => extendedScript? value
  | "age" => age? value
  | "gcb" | "graphemeclusterbreak" => graphemeRole? value
  | "wb" | "wordbreak" => wordRole? value
  | "sb" | "sentencebreak" => sentenceRole? value
  | _ => none

/-- The class that stands between braces: a name, or a property and a value with
a sign between them, for which any of three is good. -/
def ofQuery? (query : List Char) : Option CharClass :=
  let text := String.ofList query
  let parts (sign : String) : Option CharClass :=
    match text.splitOn sign with
    | property :: rest@(_ :: _) => ofValue? property.toList (sign.intercalate rest).toList
    | _ => none
  if (text.splitOn "!=").length > 1 then parts "!="
  else if ':' ∈ query then parts ":"
  else if '=' ∈ query then parts "="
  else ofName? query

end FilterQuery.CharClass
