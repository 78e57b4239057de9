import EarleyChart.Text.CodeRanges
import EarleyChart.Text.Hex

/-!
Tables of named sets of characters, written as texts. An entry is a list of
names joined by `=`, a colon, and ranges of code points in hexadecimal, such as
`41-5a` or `aa`; `100-106/2` is every other code of a range. Names are compared
loosely: case, spaces, low lines, hyphens and an `is` in front do not count.
-/

namespace EarleyChart

def plainName (name : List Char) : List Char :=
  (name.filter fun c => c.toNat < 0x80 && c != ' ' && c != '_' && c != '-').map Char.toLower

/-- A name in the form in which names are compared. The name `isc` is no longer
form of the letter `c`. -/
def looseName : List Char → List Char
  | first :: second :: rest =>
      if (first = 'i' ∨ first = 'I') ∧ (second = 's' ∨ second = 'S') then
        if plainName rest = ['c'] then ['i', 's', 'c'] else plainName rest
      else plainName (first :: second :: rest)
  | name => plainName name

structure NamedCodes where
  names : List String
  codes : CodeRanges
  deriving DecidableEq, Repr

/-- A table of named sets. -/
abbrev CharTable := List NamedCodes

namespace CharTable

def words (text : List Char) : List (List Char) :=
  (text.foldr (fun c (word, words) =>
      if c = ' ' ∨ c = '\n' then ([], if word.isEmpty then words else word :: words)
      else (c :: word, words)) ([], []) : List Char × List (List Char)) |> fun (word, words) =>
    if word.isEmpty then words else word :: words

def readCode (digits : List Char) : Nat :=
  digits.foldl (fun n c => n * 16 + (hexValue? c).getD 0) 0

def readRanges (word : List Char) : CodeRanges :=
  let lo := readCode (word.takeWhile (· != '-'))
  match word.dropWhile (· != '-') with
  | [] => [(lo, lo)]
  | _ :: rest =>
      let hi := readCode (rest.takeWhile (· != '/'))
      match rest.dropWhile (· != '/') with
      | [] => [(lo, hi)]
      | _ :: stride =>
          let stride := readCode stride
          (List.range' lo ((hi - lo) / stride + 1) stride).map fun n => (n, n)

def readNames (word : List Char) : List String :=
  ((String.ofList word.dropLast).splitOn "=").map fun name =>
    String.ofList (looseName name.toList)

def ofText (text : String) : CharTable :=
  ((words text.toList).foldr (fun word (table, codes) =>
      if word.getLast? = some ':' then (⟨readNames word, codes⟩ :: table, [])
      else (table, readRanges word ++ codes)) ([], []) : CharTable × CodeRanges).1

/-- The set of a name in the form in which names are compared. -/
def codes? (table : CharTable) (name : String) : Option CodeRanges :=
  (table.find? (·.names.contains name)).map (·.codes)

def unionOf (table : CharTable) (names : List String) : CodeRanges :=
  .unions (names.filterMap table.codes?)

end CharTable
end EarleyChart
