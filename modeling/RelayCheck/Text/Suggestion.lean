import RelayCheck.Text.Numeral

/-!
# Suggestions for misspelled names

A message about an unknown name offers the known names that resemble it. Two names are close if
few edits lead from one to the other, an edit being the insertion, removal or replacement of a
character or the exchange of two neighbours. The closest come first, equally close ones in
natural order, in which runs of digits count as numbers.

This module introduces:

- `editDistance` and `nameDistance`;
- `naturalLE`, the natural order;
- `suggestions`, the known names that resemble a name, and `SuggestionFault`, why they cannot be
  found;
- `didYouMean`, the sentence that offers them.
-/

namespace RelayCheck

/-! ## Distance -/

/-- The cells of a row of the table of distances. The table has a row for every number of
characters taken from one text and a column for every number taken from the other. The arguments
are the character of this row and the one before it, the cell to the left, the character of the
column to the left, the characters of the remaining columns, the row above from the column to the
left on, and the row above that, from two columns to the left on. -/
def distanceCells (c : Char) (before : Option Char) :
    (left : Nat) → (last : Option Char) → List Char → (above upper : List Nat) → List Nat
  | left, last, d :: columns, diagonal :: up :: above, upper =>
    let plain := min (min (up + 1) (left + 1)) (diagonal + if c = d then 0 else 1)
    let cell := match upper with
      | far :: _ => if before = some d ∧ last = some c then min plain (far + 1) else plain
      | [] => plain
    let upper := if last.isNone then upper else upper.drop 1
    cell :: distanceCells c before cell (some d) columns (up :: above) upper
  | _, _, _, _, _ => []

/-- The last row of the table of distances, from the row with the given number, its character
before, and the two rows that precede it. -/
def distanceRows (columns : List Char) :
    (row : Nat) → (before : Option Char) → List Char → (above upper : List Nat) → List Nat
  | _, _, [], above, _ => above
  | row, before, c :: rest, above, upper =>
    let cells := row :: distanceCells c before row none columns above upper
    distanceRows columns (row + 1) (some c) rest cells above

/-- The least number of edits that lead from one text to the other, no part of the text being
edited twice. -/
def editDistance (a b : List Char) : Nat :=
  (distanceRows b 1 none a (List.range (b.length + 1)) []).getLastD 0

/-- A character in lower case. Besides the letters of names these are the characters outside of
ASCII whose lower case has such a letter: the Kelvin sign, and the capital I with a dot above,
which becomes two characters. -/
def lowerChar (c : Char) : List Char :=
  match c with
  | '\u212a' => ['k']
  | '\u0130' => ['i', '\u0307']
  | _ => [c.toLower]

/-- The characters of a text in lower case. -/
def lowerChars (text : String) : List Char :=
  text.toList.flatMap lowerChar

/-- The distance of two names: a change of case alone counts as one edit. -/
def nameDistance (a b : String) : Nat :=
  if a = b then 0
  else if lowerChars a = lowerChars b then 1
  else editDistance (lowerChars a) (lowerChars b)

/-! ## Natural order -/

/-- Compare two texts by their characters. -/
def compareChars : List Char → List Char → Ordering
  | [], [] => .eq
  | [], _ :: _ => .lt
  | _ :: _, [] => .gt
  | a :: as, b :: bs => (compare a.toNat b.toNat).then (compareChars as bs)

/-- Split a text into runs of other characters and runs of digits, in turn, the first being of
other characters and possibly empty. -/
def naturalRuns (digits : Bool) (text : List Char) : (rounds : Nat) → List (List Char)
  | 0 => []
  | rounds + 1 =>
    let belongs : Char → Bool := fun c => c.isDigit == digits
    match text.dropWhile belongs with
    | [] => [text]
    | rest => text.takeWhile belongs :: naturalRuns (!digits) rest rounds

/-- Compare two lists of runs, the first run holding digits or not. -/
def compareRuns : (digits : Bool) → List (List Char) → List (List Char) → Ordering
  | _, [], [] => .eq
  | _, [], _ :: _ => .lt
  | _, _ :: _, [] => .gt
  | digits, a :: as, b :: bs =>
    let first :=
      if digits then (compare (digitsValue a) (digitsValue b)).then (compareChars a b)
      else compareChars a b
    first.then (compareRuns (!digits) as bs)

/-- Compare two names in natural order. -/
def naturalCompare (a b : String) : Ordering :=
  let runs : String → List (List Char) := fun text =>
    let found := naturalRuns false text.toList (text.length + 1)
    -- A text that ends in digits is followed by an empty run.
    if found.length % 2 = 0 then found ++ [[]] else found
  compareRuns false (runs a) (runs b)

/-- The fault of the first number in a text that is too long to have a place in natural order. -/
def unorderable? (text : String) : Option TooManyDigits :=
  (naturalRuns false text.toList (text.length + 1)).findSome? fun run =>
    if run.head?.any Char.isDigit then excess? run else none

/-- Whether `a` comes before `b` in natural order or is the same. -/
def naturalLE (a b : String) : Bool :=
  naturalCompare a b != .gt

/-! ## Suggestions -/

/-- How far a suggestion may be from the name: two fifths of its length and one more. -/
def suggestionReach (name : String) : Nat :=
  name.length * 2 / 5 + 1

/-- Whether some option cannot be measured against the name. The table of distances has a column
for each character of the name and one more, and the shorter one of the two texts in lower case
runs along them. A name that is longer in lower case than as it is written may need more columns
than there are. Nothing is measured if the texts differ by case at most, or in length by more than
the reach. -/
def immeasurable (name : String) (options : List String) : Bool :=
  options.any fun option =>
    let a := lowerChars name
    let b := lowerChars option
    let reach := suggestionReach name
    name != option && a != b && a.length ≤ b.length + reach && b.length ≤ a.length + reach
      && name.length < min a.length b.length

/-- Why there are no suggestions. -/
inductive SuggestionFault
  /-- Some option cannot be measured against the name. -/
  | immeasurable
  /-- An option that resembles the name has no place in natural order. -/
  | unorderable (excess : TooManyDigits)
deriving DecidableEq

/-- The wording of the fault. -/
def SuggestionFault.message : SuggestionFault → String
  | immeasurable => "list assignment index out of range"
  | unorderable excess => excess.message

/-- The names to offer, if they can be found. -/
abbrev Suggestions := Except SuggestionFault (List String)

/-- The options that resemble the name, each once, the closest first. -/
def suggestions (name : String) (options : List String) : Suggestions :=
  if immeasurable name options then .error .immeasurable
  else
    let close := options.eraseDups.filterMap fun option =>
      let distance := nameDistance name option
      if distance ≤ suggestionReach name then some (distance, option) else none
    match close.findSome? fun entry => unorderable? entry.2 with
    | some excess => .error (.unorderable excess)
    | none =>
      let sorted := close.mergeSort fun a b =>
        a.1 < b.1 || (a.1 == b.1 && naturalLE a.2 b.2)
      .ok (sorted.map Prod.snd)

/-- The names as alternatives. -/
def alternatives : List String → String
  | [] => ""
  | [a] => a
  | [a, b] => a ++ " or " ++ b
  | names => ", ".intercalate names.dropLast ++ ", or " ++ names.getLastD ""

/-- The most names that are offered at once. -/
def mostOffered : Nat := 5

/-- The sentence that offers the names, with a blank before it; nothing if there are none. The
first argument says what to do with the name, where that is not plain. -/
def didYouMean (todo : String) (names : List String) : String :=
  if names.isEmpty then ""
  else
    let lead := if todo.isEmpty then "" else todo ++ " "
    let quoted := (names.take mostOffered).map fun name => s!"'{name}'"
    s!" Did you mean {lead}{alternatives quoted}?"

/-- The sentence that offers what resembles a name, if it was found. -/
def Suggestions.sentence (similar : Suggestions) : String :=
  match similar with
  | .ok names => didYouMean "" names
  | .error _ => ""

end RelayCheck
