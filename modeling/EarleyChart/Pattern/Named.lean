import EarleyChart.Pattern.CharSet
import EarleyChart.Text.Age
import EarleyChart.Text.Break

/-!
Sets of characters by the names that the standard gives them: a property, a
category or a script by its name alone, or the value of a property by both.
-/

namespace EarleyChart
namespace CharSet

def named? (name : List Char) : Option CharSet :=
  let name := String.ofList (looseName name)
  (((Property.named? name).or (Category.named? name)).or (Script.named? name)).map CharSet.mk

def valued? (property value : List Char) : Option CharSet :=
  let value := String.ofList (looseName value)
  let codes? :=
    match String.ofList (looseName property) with
    | "generalcategory" | "gc" => Category.named? value
    | "script" | "sc" => Script.named? value
    | "scriptextensions" | "scx" => Script.extended? value
    | "age" => Age.named? value
    | "graphemeclusterbreak" | "gcb" => Break.named? Break.Grapheme.classes value
    | "wordbreak" | "wb" => Break.named? Break.Word.classes value
    | "sentencebreak" | "sb" => Break.named? Break.Sentence.classes value
    | _ => none
  codes?.map CharSet.mk

def splitAt? (separator : List Char) : List Char → Option (List Char × List Char)
  | [] => none
  | c :: rest =>
      if separator.isPrefixOf (c :: rest) then some ([], (c :: rest).drop separator.length)
      else (splitAt? separator rest).map fun (before, after) => (c :: before, after)

/-- The set that a text between braces names. A value may be parted from its
property by `!=`, `:` or `=`, which all mean the same. -/
def described? (text : List Char) : Option CharSet :=
  match ((splitAt? ['!', '='] text).or (splitAt? [':'] text)).or (splitAt? ['='] text) with
  | some (property, value) => valued? property value
  | none => named? text

end CharSet
end EarleyChart
