import Rulebook.Json.Token
import Rulebook.Json.Value

/-!
# Reading TOML

Version 1.0 of the language: comments, tables and arrays of tables, keys with or without
quotation marks and with points, strings on one line or on several, truth values, numbers,
dates and times, arrays and inline tables.

* `Rulebook.Toml.Node` – what a key stands for while the text is read, and
  `Rulebook.Toml.within`, the one way to get to a table inside another;
* `Rulebook.Toml.read?` – **the value of a text**, its tables being objects; none if the
  text is not TOML.
-/

namespace Rulebook.Toml

/-! ### Characters -/

/-- Whether a character is a space or a tab. -/
def isSpace (c : Char) : Bool := c == ' ' || c == '\t'

/-- Whether a character may stand in a string or a comment. -/
def isPlain (c : Char) : Bool := c == '\t' || (32 ≤ c.toNat && c.toNat != 127)

/-- A text without the spaces and tabs at its start. -/
def skipSpaces (cs : List Char) : List Char := cs.dropWhile isSpace

/-- A text without the comment at its start, if there is one. -/
def skipComment : List Char → List Char
  | '#' :: cs => cs.dropWhile isPlain
  | cs => cs

/-- The text behind the end of a line, if the text starts with one. -/
def newline? : List Char → Option (List Char)
  | '\n' :: cs => some cs
  | '\r' :: '\n' :: cs => some cs
  | _ => none

/-- The text behind the rest of a line, if there is nothing more than a comment in it. -/
def endOfLine? (cs : List Char) : Option (List Char) :=
  match skipComment (skipSpaces cs) with
  | [] => some []
  | cs => newline? cs

/-- A text without the spaces, comments and ends of lines at its start; there are at most
`fuel` lines of them. -/
def skipLines : Nat → List Char → List Char
  | 0, cs => cs
  | fuel + 1, cs =>
    let cs := skipComment (skipSpaces cs)
    match newline? cs with
    | some cs => skipLines fuel cs
    | none => cs

/-! ### Strings and keys -/

/-- The number that digits stand for in a base of at most sixteen. -/
def digitsIn? (base : Nat) (cs : List Char) : Option Nat :=
  cs.foldlM (fun n c => do
    let d ← Token.hexValue? c
    if d < base then some (n * base + d) else none) 0

/-- The character with a number. -/
def char? (n : Nat) : Option Char := if h : n.isValidChar then some (Char.ofNatAux n h) else none

/-- The character that a one-letter escape stands for. -/
def shortEscape? (c : Char) : Option Char :=
  if c = '"' ∨ c = '\\' then some c
  else if c = 'b' then some (Char.ofNat 8)
  else if c = 't' then some '\t'
  else if c = 'n' then some '\n'
  else if c = 'f' then some (Char.ofNat 12)
  else if c = 'r' then some '\r'
  else none

/-- The character that an escape stands for, and the rest of the text. The backslash has been
read. -/
def scanEscape : List Char → Option (Char × List Char)
  | [] => none
  | e :: rest =>
    let digits := if e = 'u' then 4 else if e = 'U' then 8 else 0
    let escape :=
      if digits = 0 then shortEscape? e
      else if rest.length < digits then none
      else (digitsIn? 16 (rest.take digits)).bind char?
    escape.map fun c => (c, rest.drop digits)

/-- A character of a string, and the rest of the text. Only some strings have escapes. -/
def scanChar (escapes : Bool) : List Char → Option (Char × List Char)
  | [] => none
  | c :: rest =>
    if c = '\\' ∧ escapes then scanEscape rest
    else if isPlain c then some (c, rest)
    else none

/-- The characters of a string with escapes up to its closing quotation mark, and the rest
of the text. -/
def scanBasic : Nat → List Char → Option (List Char × List Char)
  | 0, _ => none
  | _, '"' :: rest => some ([], rest)
  | fuel + 1, cs => do
    let (c, rest) ← scanChar true cs
    let (s, rest) ← scanBasic fuel rest
    return (c :: s, rest)

/-- The characters of a string without escapes, and the rest of the text. -/
def scanLiteral (cs : List Char) : Option (List Char × List Char) :=
  let (s, rest) := cs.span fun c => isPlain c && c != '\''
  match rest with
  | '\'' :: rest => some (s, rest)
  | _ => none

/-- A string on one line. -/
def scanString : List Char → Option (String × List Char)
  | '"' :: cs => (scanBasic (cs.length + 1) cs).map fun (s, rest) => (String.ofList s, rest)
  | '\'' :: cs => (scanLiteral cs).map fun (s, rest) => (String.ofList s, rest)
  | _ => none

/-- The end of a string on several lines: at most two quotation marks that belong to it, three
that close it, and the rest of the text. -/
def scanClosing (quote : Char) (cs : List Char) : Option (List Char × List Char) :=
  let quotes := (cs.takeWhile (· == quote)).length
  if quotes < 3 then none
  else some (List.replicate (min (quotes - 3) 2) quote, cs.drop (min quotes 5))

/-- A text without the spaces, tabs and ends of lines at its start. -/
def skipBlank : List Char → List Char
  | '\r' :: '\n' :: cs => skipBlank cs
  | c :: cs => if isSpace c || c == '\n' then skipBlank cs else c :: cs
  | [] => []

/-- The characters of a string on several lines up to where it is closed, and the rest of the
text. Only between double quotation marks are there escapes, and a backslash at the end of a
line, which leaves out what is blank up to the next character. -/
def scanBlock (quote : Char) : Nat → List Char → Option (List Char × List Char)
  | 0, _ => none
  | fuel + 1, cs =>
    match scanClosing quote cs with
    | some ending => some ending
    | none =>
      let continued :=
        match cs with
        | '\\' :: rest => if quote = '"' then newline? (skipSpaces rest) else none
        | _ => none
      match continued with
      | some rest => scanBlock quote fuel (skipBlank rest)
      | none => do
        let (c, rest) ←
          match newline? cs with
          | some rest => some ('\n', rest)
          | none => scanChar (quote == '"') cs
        let (s, rest) ← scanBlock quote fuel rest
        return (c :: s, rest)

/-- A string on one line, or on several between three quotation marks and three more. The end
of a line behind the first three is not part of it. -/
def scanText : List Char → Option (String × List Char)
  | '"' :: '"' :: '"' :: cs => block '"' cs
  | '\'' :: '\'' :: '\'' :: cs => block '\'' cs
  | cs => scanString cs
where
  /-- A string on several lines. -/
  block (quote : Char) (cs : List Char) : Option (String × List Char) :=
    let cs := (newline? cs).getD cs
    (scanBlock quote (cs.length + 1) cs).map fun (s, rest) => (String.ofList s, rest)

/-- Whether a character may stand in a key without quotation marks. -/
def isKeyChar (c : Char) : Bool := c.isAlphanum || c == '_' || c == '-'

/-- One part of a key. -/
def scanKeyPart (cs : List Char) : Option (String × List Char) :=
  match cs with
  | '"' :: _ | '\'' :: _ => scanString cs
  | cs =>
    let (s, rest) := cs.span isKeyChar
    if s.isEmpty then none else some (String.ofList s, rest)

/-- At most `fuel` parts of a key with points between them. -/
def scanKeyParts : Nat → List Char → Option (List String × List Char)
  | 0, _ => none
  | fuel + 1, cs => do
    let (part, rest) ← scanKeyPart (skipSpaces cs)
    match skipSpaces rest with
    | '.' :: rest => do
      let (parts, rest) ← scanKeyParts fuel rest
      return (part :: parts, rest)
    | rest => return ([part], rest)

/-- How many parts a key may have, and how many arrays and inline tables may be open at a
spot. -/
def depth : Nat := 79

/-- A key. -/
def scanKey (cs : List Char) : Option (List String × List Char) := scanKeyParts depth cs

/-! ### Tables -/

/-- How a table came to be, which decides what may still be added to it. -/
inductive Origin where
  /-- It lies on the path of a heading, but has had no heading of its own. -/
  | passed
  /-- It has had a heading. -/
  | headed
  /-- It lies on the path of a key. -/
  | dotted
deriving DecidableEq, Repr

/-- What a key stands for while the text is read. -/
inductive Node where
  /-- A value that nothing can be added to. -/
  | value (j : Json)
  /-- A table, and how it came to be. -/
  | table (origin : Origin) (members : List (String × Node))
  /-- The tables of an array of tables, the last first. -/
  | tables (items : List (List (String × Node)))

/-- The members of a table. -/
abbrev Members := List (String × Node)

/-- Replaces or adds what a name stands for. -/
def put (name : String) (n : Node) : Members → Members
  | [] => [(name, n)]
  | m :: ms => if m.1 == name then (name, n) :: ms else m :: put name n ms

/-- What a name stands for. -/
def find? (name : String) (ms : Members) : Option Node :=
  (ms.find? fun m => m.1 == name).map Prod.snd

/-- **Changes the table that a path leads to**, in steps that make tables of an origin where
there are none and go into the last table of an array of tables. The origins of the tables
that a step may go into are told by `enters`, those of the table where the path ends, if
it is another one than that of the start, by `ends`. -/
def within (made : Origin) (enters ends : Origin → Bool) (change : Members → Option Members) :
    List String → Members → Option Members
  | [], ms => change ms
  | name :: path, ms =>
    match find? name ms with
    | none =>
      (within made enters ends change path []).map fun inner => put name (.table made inner) ms
    | some (.table origin inner) =>
      -- The last step ends here, all others go on.
      if enters origin && (!path.isEmpty || ends origin) then
        (within made enters ends change path inner).map fun inner =>
          put name (.table origin inner) ms
      else none
    | some (.tables (last :: before)) =>
      if path.isEmpty && !ends .headed then none
      else
        (within made enters ends change path last).map fun last =>
          put name (.tables (last :: before)) ms
    | some (.tables []) | some (.value _) => none

/-- Changes the table that the path of a heading leads to. -/
def withinHeading : (Members → Option Members) → List String → Members → Option Members :=
  within .passed (fun _ => true) fun _ => true

/-- Changes the table that the path of a key leads to. A table with a heading of its own
gets its members below that heading only. -/
def withinKey : (Members → Option Members) → List String → Members → Option Members :=
  within .dotted (· != .headed) (· == .dotted)

/-- Adds the table that a heading starts. A table may have one heading. -/
def addTable (name : String) (ms : Members) : Option Members :=
  match find? name ms with
  | none => some (put name (.table .headed []) ms)
  -- The heading may come after those of the tables inside.
  | some (.table .passed inner) => some (put name (.table .headed inner) ms)
  | some _ => none

/-- Adds a table to an array of tables. -/
def addToTables (name : String) (ms : Members) : Option Members :=
  match find? name ms with
  | none => some (put name (.tables [[]]) ms)
  | some (.tables items) => some (put name (.tables ([] :: items)) ms)
  | some _ => none

/-- Adds a value under a name that stands for nothing yet. -/
def addValue (name : String) (j : Json) (ms : Members) : Option Members :=
  match find? name ms with
  | none => some (put name (.value j) ms)
  | some _ => none

/-- Adds a value under a key. -/
def addUnder (key : List String) (j : Json) : Members → Option Members :=
  withinKey (addValue (key.getLast?.getD "") j) key.dropLast

mutual

/-- The value of a node. -/
def Node.toJson : Node → Json
  | .value j => j
  | .table _ members => .object (membersJson members)
  | .tables items => .array (tablesJson items).reverse

/-- The members of a table. -/
def membersJson : Members → List (String × Json)
  | [] => []
  | (name, n) :: ms => (name, n.toJson) :: membersJson ms

/-- The tables of an array, in the order in which they are kept. -/
def tablesJson : List Members → List Json
  | [] => []
  | ms :: items => .object (membersJson ms) :: tablesJson items

end

/-! ### Numbers -/

/-- A number without the underscores in it, each of which has to stand between two
digits. -/
def ungroup? (isDigit : Char → Bool) : List Char → Option (List Char)
  | [] => some []
  | c :: '_' :: d :: cs =>
    if isDigit c && isDigit d then (ungroup? isDigit (d :: cs)).map (c :: ·) else none
  | c :: cs => if c = '_' then none else (ungroup? isDigit cs).map (c :: ·)

/-- An integer that 64 bits hold. -/
def integer? (i : Int) : Option Json :=
  if Int64.minValue.toInt ≤ i ∧ i ≤ Int64.maxValue.toInt then some (.integer i) else none

/-- An integer in another base than ten. -/
def basedInteger? (base : Nat) (cs : List Char) : Option Json := do
  let digits ← ungroup? (fun c => (Token.hexValue? c).isSome) cs
  if digits.isEmpty then none else integer? (← digitsIn? base digits)

/-- A decimal number: an integer, or one with a fraction or an exponent. -/
def decimal? (negative : Bool) (cs : List Char) : Option Json := do
  let (n, rest) := Numeral.scan (← ungroup? Char.isDigit cs)
  if !rest.isEmpty || !Token.wellSpelled n then none
  else if n.fraction.isNone && n.exponent.isNone then
    let i := digitsValue n.whole
    integer? (if negative then -(i : Int) else i)
  else some (.real (n.decimal.nearest negative))

/-- A number. Only decimal numbers may have a sign. -/
def number? : List Char → Option Json
  | '0' :: 'x' :: cs => basedInteger? 16 cs
  | '0' :: 'o' :: cs => basedInteger? 8 cs
  | '0' :: 'b' :: cs => basedInteger? 2 cs
  | cs =>
    let (negative, body) := Numeral.scanSign cs
    if body = ['i', 'n', 'f'] then some (.real (.infinite negative))
    else if body = ['n', 'a', 'n'] then some (.real .nan)
    else decimal? negative body

/-! ### Dates and times -/

/-- The number that so many digits spell, and the rest of the text. -/
def scanDigits (count : Nat) (cs : List Char) : Option (Nat × List Char) :=
  let digits := cs.take count
  if digits.length = count ∧ digits.all Char.isDigit then some (digitsValue digits, cs.drop count)
  else none

/-- The text behind a character, if it starts with it. -/
def behind? (c : Char) : List Char → Option (List Char)
  | d :: cs => if d = c then some cs else none
  | [] => none

/-- How many days a month has. -/
def daysIn (year month : Nat) : Nat :=
  if month = 2 then
    if year % 4 = 0 ∧ (year % 100 ≠ 0 ∨ year % 400 = 0) then 29 else 28
  else if month ∈ [4, 6, 9, 11] then 30
  else 31

/-- The text behind a date. -/
def skipDate? (cs : List Char) : Option (List Char) := do
  let (year, cs) ← scanDigits 4 cs
  let (month, cs) ← scanDigits 2 (← behind? '-' cs)
  let (day, cs) ← scanDigits 2 (← behind? '-' cs)
  if 1 ≤ month ∧ month ≤ 12 ∧ 1 ≤ day ∧ day ≤ daysIn year month then some cs else none

/-- The text behind the fraction of a second, if there is one. -/
def skipFraction : List Char → List Char
  | '.' :: c :: cs => if c.isDigit then cs.dropWhile Char.isDigit else '.' :: c :: cs
  | cs => cs

/-- The text behind a time. There may be leap seconds. -/
def skipTime? (cs : List Char) : Option (List Char) := do
  let (hour, cs) ← scanDigits 2 cs
  let (minute, cs) ← scanDigits 2 (← behind? ':' cs)
  let (second, cs) ← scanDigits 2 (← behind? ':' cs)
  if hour ≤ 23 ∧ minute ≤ 59 ∧ second ≤ 60 then some (skipFraction cs) else none

/-- The text behind the offset of a time from universal time, if there is one. -/
def skipOffset? (cs : List Char) : Option (List Char) :=
  match cs with
  | 'Z' :: cs | 'z' :: cs => some cs
  | '+' :: cs | '-' :: cs => do
    let (hour, cs) ← scanDigits 2 cs
    let (minute, cs) ← scanDigits 2 (← behind? ':' cs)
    if hour ≤ 23 ∧ minute ≤ 59 then some cs else none
  | cs => some cs

/-- The text behind a date, a time, or a date with a time. -/
def skipDateTime? (cs : List Char) : Option (List Char) :=
  match skipDate? cs with
  | none => skipTime? cs
  | some rest =>
    match rest with
    | 'T' :: cs | 't' :: cs | ' ' :: cs =>
      -- What stands behind a date and a space need not be a time.
      match skipTime? cs with
      | some cs => skipOffset? cs
      | none => some rest
    | _ => some rest

/-- A date or a time, and the rest of the text. Its value is a table whose only member has a
name of its own, and the text. -/
def scanDateTime (cs : List Char) : Option (Json × List Char) :=
  (skipDateTime? cs).map fun rest =>
    let text := String.ofList (cs.take (cs.length - rest.length))
    (.object [("$__toml_private_datetime", .string text)], rest)

/-! ### Arrays and inline tables -/

mutual

/-- A value at the start of a text, and the rest. At most `deeper` more arrays and inline
tables may be opened inside each other. -/
def scanValue (deeper : Nat) : Nat → List Char → Option (Json × List Char)
  | 0, _ => none
  | fuel + 1, cs =>
    match cs, deeper with
    | '"' :: _, _ | '\'' :: _, _ => (scanText cs).map fun (s, rest) => (.string s, rest)
    | '[' :: _, 0 | '\x7b' :: _, 0 => none
    | '[' :: cs, deeper + 1 => scanItems deeper fuel [] cs
    | '\x7b' :: cs, deeper + 1 =>
      match skipSpaces cs with
      | '\x7d' :: rest => some (.object [], rest)
      | cs => scanMembers deeper fuel [] cs
    | cs, _ =>
      match scanDateTime cs with
      | some found => some found
      | none =>
        let (word, rest) := cs.span fun c => isKeyChar c || c == '+' || c == '.'
        if word = ['t', 'r', 'u', 'e'] then some (.bool true, rest)
        else if word = ['f', 'a', 'l', 's', 'e'] then some (.bool false, rest)
        else (number? word).map fun j => (j, rest)

/-- The items of an array behind those that have been read, and the rest. -/
def scanItems (deeper : Nat) : Nat → List Json → List Char → Option (Json × List Char)
  | 0, _, _ => none
  | fuel + 1, done, cs =>
    match skipLines cs.length cs with
    | ']' :: rest => some (.array done.reverse, rest)
    | cs => do
      let (j, rest) ← scanValue deeper fuel cs
      match skipLines rest.length rest with
      | ',' :: rest => scanItems deeper fuel (j :: done) rest
      | ']' :: rest => return (.array (j :: done).reverse, rest)
      | _ => none

/-- The members of an inline table behind those that have been read, and the rest. -/
def scanMembers (deeper : Nat) : Nat → Members → List Char → Option (Json × List Char)
  | 0, _, _ => none
  | fuel + 1, done, cs => do
    let (key, rest) ← scanKey cs
    match skipSpaces rest with
    | '=' :: rest => do
      let (j, rest) ← scanValue deeper fuel (skipSpaces rest)
      let done ← addUnder key j done
      match skipSpaces rest with
      | ',' :: rest => scanMembers deeper fuel done (skipSpaces rest)
      | '\x7d' :: rest => return (.object (membersJson done), rest)
      | _ => none
    | _ => none

end

/-! ### Texts -/

/-- What has been read: the table at the top, and the path of the table that keys go to. -/
structure State where
  /-- The table at the top. -/
  top : Members
  /-- The path of the table that keys go to. -/
  path : List String

/-- Reads a heading or a key with its value, which start a line, and the rest of the line. -/
def readLine (s : State) (cs : List Char) : Option (State × List Char) :=
  match cs with
  | '[' :: '[' :: cs => do
    let (key, rest) ← scanKey cs
    match rest with
    | ']' :: ']' :: rest => do
      let top ← withinHeading (addToTables (key.getLast?.getD "")) key.dropLast s.top
      return (⟨top, key⟩, ← endOfLine? rest)
    | _ => none
  | '[' :: cs => do
    let (key, rest) ← scanKey cs
    match rest with
    | ']' :: rest => do
      let top ← withinHeading (addTable (key.getLast?.getD "")) key.dropLast s.top
      return (⟨top, key⟩, ← endOfLine? rest)
    | _ => none
  | cs => do
    let (key, rest) ← scanKey cs
    match rest with
    | '=' :: rest => do
      let (j, rest) ← scanValue depth (rest.length + 1) (skipSpaces rest)
      let top ← withinHeading (addUnder key j) s.path s.top
      return ({ s with top }, ← endOfLine? rest)
    | _ => none

/-- Reads at most `fuel` lines that are not empty. -/
def readLines : Nat → State → List Char → Option State
  | 0, _, _ => none
  | fuel + 1, s, cs =>
    match skipLines cs.length cs with
    | [] => some s
    | cs => do
      let (s, rest) ← readLine s cs
      readLines fuel s rest

/-- **The value of a text.** A byte order mark may stand in front of it. -/
def read? (text : String) : Option Json :=
  let cs :=
    match text.toList with
    | '\ufeff' :: cs => cs
    | cs => cs
  (readLines (cs.length + 1) ⟨[], []⟩ cs).map fun s => .object (membersJson s.top)

end Rulebook.Toml
