/-
  Reading JSON documents, strictly.

  Blanks are the space, the tab and the line ends; control characters in
  strings, leading zeros, commas without a value and anything after the value
  are refused.  Numbers are kept as they are written.  A string that escapes
  one half of a surrogate pair alone is well formed, but denotes no text.

  Each step consumes a character, so the length of a document bounds the
  nesting and the number of its values (`Json.parse`).
-/

namespace Injection.Text

/-- A JSON value.  A string that denotes no text is `none`. -/
inductive Json where
  | null
  | bool (b : Bool)
  | number (literal : List Char)
  | text (content : Option String)
  | array (elements : List Json)
  /-- The members in the order in which they stand, repeated names included. -/
  | object (members : List (Option String × Json))

namespace Json

/-! ## Strings -/

/-- A piece of a string: a character, or a UTF-16 unit given by a numeric escape. -/
inductive Piece where
  | char (c : Char)
  | unit (n : Nat)

def hexDigit? (c : Char) : Option Nat :=
  if '0' ≤ c && c ≤ '9' then some (c.toNat - '0'.toNat)
  else if 'a' ≤ c && c ≤ 'f' then some (c.toNat - 'a'.toNat + 10)
  else if 'A' ≤ c && c ≤ 'F' then some (c.toNat - 'A'.toNat + 10)
  else none

/-- The character that a short escape stands for. -/
def shortEscape? : Char → Option Char
  | '"' => some '"'
  | '\\' => some '\\'
  | '/' => some '/'
  | 'b' => some '\x08'
  | 'f' => some '\x0c'
  | 'n' => some '\n'
  | 'r' => some '\r'
  | 't' => some '\t'
  | _ => none

/-- The pieces of a string after its opening quote, and what follows its closing quote. -/
def pieces : List Char → Option (List Piece × List Char)
  | [] => none
  | '"' :: rest => some ([], rest)
  | '\\' :: 'u' :: a :: b :: c :: d :: rest => do
    let n := 4096 * (← hexDigit? a) + 256 * (← hexDigit? b) + 16 * (← hexDigit? c)
      + (← hexDigit? d)
    let (more, rest) ← pieces rest
    return (.unit n :: more, rest)
  | '\\' :: c :: rest => do
    let c ← shortEscape? c
    let (more, rest) ← pieces rest
    return (.char c :: more, rest)
  | c :: rest => do
    if c.toNat < 0x20 || c = '\\' then none
    let (more, rest) ← pieces rest
    return (.char c :: more, rest)

/-- The characters of a string, unless half of a surrogate pair stands alone. -/
def decode : List Piece → Option (List Char)
  | [] => some []
  | .char c :: rest => (decode rest).map (c :: ·)
  | .unit high :: .unit low :: rest =>
    if 0xd800 ≤ high && high < 0xdc00 && 0xdc00 ≤ low && low < 0xe000 then
      (decode rest).map (Char.ofNat (0x10000 + 1024 * (high - 0xd800) + (low - 0xdc00)) :: ·)
    else if 0xd800 ≤ high && high < 0xe000 then none
    else (decode (.unit low :: rest)).map (Char.ofNat high :: ·)
  | .unit n :: rest =>
    if 0xd800 ≤ n && n < 0xe000 then none else (decode rest).map (Char.ofNat n :: ·)

/-- A string after its opening quote. -/
def string (cs : List Char) : Option (Option String × List Char) := do
  let (found, rest) ← pieces cs
  return ((decode found).map String.ofList, rest)

/-! ## Numbers -/

/-- The digits at the front, at least one, and what follows. -/
def digits (cs : List Char) : Option (List Char × List Char) :=
  match cs.span Char.isDigit with
  | ([], _) => none
  | found => some found

/-- A whole number without a sign: no zero before another digit. -/
def whole : List Char → Option (List Char × List Char)
  | '0' :: c :: rest => if c.isDigit then none else some (['0'], c :: rest)
  | cs => digits cs

def fraction : List Char → Option (List Char × List Char)
  | '.' :: cs => (digits cs).map fun (found, rest) => ('.' :: found, rest)
  | cs => some ([], cs)

def exponent : List Char → Option (List Char × List Char)
  | e :: sign :: cs =>
    if e != 'e' && e != 'E' then some ([], e :: sign :: cs)
    else if sign = '+' || sign = '-' then
      (digits cs).map fun (found, rest) => (e :: sign :: found, rest)
    else (digits (sign :: cs)).map fun (found, rest) => (e :: found, rest)
  | [e] => if e = 'e' || e = 'E' then none else some ([], [e])
  | [] => some ([], [])

def unsigned (cs : List Char) : Option (List Char × List Char) := do
  let (a, cs) ← whole cs
  let (b, cs) ← fraction cs
  let (c, cs) ← exponent cs
  return (a ++ b ++ c, cs)

/-! ## Values -/

/-- What follows the blanks at the front. -/
def skipBlanks (cs : List Char) : List Char :=
  cs.dropWhile fun c => c = ' ' || c = '\t' || c = '\n' || c = '\r'

mutual

def value : Nat → List Char → Option (Json × List Char)
  | 0, _ => none
  | fuel + 1, cs =>
    match skipBlanks cs with
    | 'n' :: 'u' :: 'l' :: 'l' :: rest => some (.null, rest)
    | 't' :: 'r' :: 'u' :: 'e' :: rest => some (.bool true, rest)
    | 'f' :: 'a' :: 'l' :: 's' :: 'e' :: rest => some (.bool false, rest)
    | '"' :: rest => (string rest).map fun (content, rest) => (.text content, rest)
    | '[' :: rest =>
      match skipBlanks rest with
      | ']' :: rest => some (.array [], rest)
      | rest => (elements fuel rest).map fun (found, rest) => (.array found, rest)
    | '\x7b' :: rest =>
      match skipBlanks rest with
      | '\x7d' :: rest => some (.object [], rest)
      | rest => (members fuel rest).map fun (found, rest) => (.object found, rest)
    | '-' :: rest => (unsigned rest).map fun (literal, rest) => (.number ('-' :: literal), rest)
    | rest => (unsigned rest).map fun (literal, rest) => (.number literal, rest)

/-- The elements of an array, at least one, up to its closing bracket. -/
def elements : Nat → List Char → Option (List Json × List Char)
  | 0, _ => none
  | fuel + 1, cs => do
    let (first, rest) ← value fuel cs
    match skipBlanks rest with
    | ']' :: rest => return ([first], rest)
    | ',' :: rest =>
      let (others, rest) ← elements fuel rest
      return (first :: others, rest)
    | _ => none

/-- The members of an object, at least one, up to its closing brace. -/
def members : Nat → List Char → Option (List (Option String × Json) × List Char)
  | 0, _ => none
  | fuel + 1, cs =>
    match skipBlanks cs with
    | '"' :: rest => do
      let (name, rest) ← string rest
      match skipBlanks rest with
      | ':' :: rest =>
        let (first, rest) ← value fuel rest
        match skipBlanks rest with
        | '\x7d' :: rest => return ([(name, first)], rest)
        | ',' :: rest =>
          let (others, rest) ← members fuel rest
          return ((name, first) :: others, rest)
        | _ => none
      | _ => none
    | _ => none

end

/-- The value of a document: one value, with nothing but blanks around it. -/
def parse (document : String) : Option Json :=
  let cs := document.toList
  match value (2 * cs.length + 1) cs with
  | some (found, rest) => if (skipBlanks rest).isEmpty then some found else none
  | none => none

end Json

end Injection.Text
