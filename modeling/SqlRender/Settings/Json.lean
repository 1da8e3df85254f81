/-!
# JSON text

A reader for JSON that stops behind the first value: what follows it is left unread. Beyond the
grammar of JSON it takes

* a comma before a closing bracket or brace;
* control characters in a string, as they are;
* a backslash before any character but `u`; before one without a meaning as an escape it stands for
  nothing;
* a plus sign in the place of the first of the four digits behind `\u`;
* zeros in front of a number, a point behind its last digit, and a point behind its minus sign.

What the grammar of JSON has and the reader refuses is an integer of more than 128 bits and half of a
surrogate pair.

The characters are read from the front of a list. `string?` and `number?` follow the list itself;
`value?` nests, and is given a bound on its depth of calls. Twice the length of the text always
covers it, because of two calls in a row at least one takes a character off the text.
-/

namespace SqlRender

/-- A number as it is spelled. -/
structure Numeral where
  negative : Bool
  /-- The digits before the point. -/
  whole : List Char
  /-- The digits behind the point, if there is one. -/
  fraction : Option (List Char)
  /-- The sign and the digits of the exponent, if there is one. -/
  exponent : Option (Bool × List Char)
deriving DecidableEq, Repr

/-- A JSON value. -/
inductive Json where
  | null
  | bool (b : Bool)
  | number (n : Numeral)
  | string (s : String)
  | array (elements : List Json)
  | object (members : List (String × Json))

namespace Json

/-- JSON knows four blanks. -/
def isBlank (c : Char) : Bool := c = ' ' || c = '\t' || c = '\n' || c = '\r'

def skipBlanks (cs : List Char) : List Char := cs.dropWhile isBlank

/-! ## Strings -/

/-- The value of a hexadecimal digit. -/
def hexDigit? (c : Char) : Option Nat :=
  if '0' ≤ c ∧ c ≤ '9' then some (c.toNat - '0'.toNat)
  else if 'a' ≤ c ∧ c ≤ 'f' then some (c.toNat - 'a'.toNat + 10)
  else if 'A' ≤ c ∧ c ≤ 'F' then some (c.toNat - 'A'.toNat + 10)
  else none

/-- The value of four hexadecimal digits. A plus sign may stand in the place of the first. -/
def hex4? (a b c d : Char) : Option Nat := do
  let high ← if a = '+' then some 0 else hexDigit? a
  return ((high * 16 + (← hexDigit? b)) * 16 + (← hexDigit? c)) * 16 + (← hexDigit? d)

/-- The character that a single character behind a backslash stands for: one of five control
characters, or itself. -/
def escaped (c : Char) : Char :=
  match c with
  | 'b' => '\x08'
  | 'f' => '\x0c'
  | 'n' => '\n'
  | 'r' => '\r'
  | 't' => '\t'
  | c => c

/-- The character of two halves of a surrogate pair. -/
def pairChar? (high low : Nat) : Option Char :=
  if 0xDC00 ≤ low ∧ low ≤ 0xDFFF then
    some (Char.ofNat (0x10000 + (high - 0xD800) * 0x400 + (low - 0xDC00)))
  else none

/-- Reads a string behind its opening quote. Halves of surrogate pairs stand only together. -/
def string? : List Char → Option (List Char × List Char)
  | [] => none
  | '"' :: rest => some ([], rest)
  | '\\' :: 'u' :: a :: b :: c :: d :: rest => do
    let unit ← hex4? a b c d
    if unit < 0xD800 ∨ 0xDFFF < unit then
      let (cs, rest) ← string? rest
      return (Char.ofNat unit :: cs, rest)
    else if 0xDC00 ≤ unit then none
    else match rest with
      | '\\' :: 'u' :: e :: f :: g :: h :: rest => do
        let c ← pairChar? unit (← hex4? e f g h)
        let (cs, rest) ← string? rest
        return (c :: cs, rest)
      | _ => none
  | '\\' :: c :: rest =>
    if c = 'u' then none
    else do
      let (cs, rest) ← string? rest
      return (escaped c :: cs, rest)
  | c :: rest => do
    let (cs, rest) ← string? rest
    return (c :: cs, rest)

/-! ## Numbers -/

/-- Splits a text behind the digits that it starts with. -/
def digits (cs : List Char) : List Char × List Char :=
  (cs.takeWhile Char.isDigit, cs.dropWhile Char.isDigit)

/-- The number that decimal digits stand for. -/
def ofDigits (ds : List Char) : Nat :=
  ds.foldl (fun n c => 10 * n + (c.toNat - '0'.toNat)) 0

/-- Splits a text behind the fraction that it starts with, if it starts with one. -/
def fraction : List Char → Option (List Char) × List Char
  | '.' :: rest =>
    let (ds, rest) := digits rest
    (some ds, rest)
  | cs => (none, cs)

/-- Splits a text behind the exponent that it starts with, if it starts with one. -/
def exponent : List Char → Option (Bool × List Char) × List Char
  | e :: rest =>
    if e = 'e' ∨ e = 'E' then
      let (negative, rest) :=
        match rest with
        | '+' :: rest => (false, rest)
        | '-' :: rest => (true, rest)
        | rest => (false, rest)
      let (ds, rest) := digits rest
      (some (negative, ds), rest)
    else (none, e :: rest)
  | [] => (none, [])

/-- Splits a text behind the parts of a number that it starts with, each of which may be empty. -/
def numeral (cs : List Char) : Numeral × List Char :=
  let (negative, cs) :=
    match cs with
    | '-' :: rest => (true, rest)
    | cs => (false, cs)
  let (whole, cs) := digits cs
  let (fraction, cs) := fraction cs
  let (exponent, cs) := exponent cs
  ({ negative, whole, fraction, exponent }, cs)

/-- The greatest size of an integer: with a minus sign it is one of 128 bits in two's complement,
otherwise one of 128 bits without a sign. -/
def integerBound (negative : Bool) : Nat :=
  if negative then 1 <<< 127 else (1 <<< 128) - 1

end Json

/-- Whether a spelling has a value. An integer has digits and is within bounds. Anything else has a
digit on at least one side of the point, and digits in its exponent if there is one; how large it is
does not matter. -/
def Numeral.isNumber (n : Numeral) : Bool :=
  match n.fraction, n.exponent with
  | none, none => !n.whole.isEmpty && Json.ofDigits n.whole ≤ Json.integerBound n.negative
  | f, e => !(n.whole ++ f.getD []).isEmpty && e.all fun x => !x.2.isEmpty

namespace Json

/-- Reads a number, which starts with a digit or a minus sign. -/
def number? (cs : List Char) : Option (Numeral × List Char) :=
  if cs.head?.any fun c => c = '-' || c.isDigit then
    let (n, rest) := numeral cs
    if n.isNumber then some (n, rest) else none
  else none

/-! ## Values -/

mutual

/-- Reads a value, with a bound on the depth of calls. -/
def value? : Nat → List Char → Option (Json × List Char)
  | 0, _ => none
  | n + 1, cs =>
    match skipBlanks cs with
    | '"' :: rest => do
      let (s, rest) ← string? rest
      return (.string (String.ofList s), rest)
    | '[' :: rest =>
      match skipBlanks rest with
      | ']' :: rest => some (.array [], rest)
      | rest => do
        let (vs, rest) ← elements? n rest
        return (.array vs, rest)
    | '\x7b' :: rest =>
      match skipBlanks rest with
      | '\x7d' :: rest => some (.object [], rest)
      | rest => do
        let (ms, rest) ← members? n rest
        return (.object ms, rest)
    | 'n' :: 'u' :: 'l' :: 'l' :: rest => some (.null, rest)
    | 't' :: 'r' :: 'u' :: 'e' :: rest => some (.bool true, rest)
    | 'f' :: 'a' :: 'l' :: 's' :: 'e' :: rest => some (.bool false, rest)
    | rest => do
      let (n, rest) ← number? rest
      return (.number n, rest)

/-- Reads the elements of an array, of which there is at least one, and its closing bracket; a comma
may stand before the bracket. -/
def elements? : Nat → List Char → Option (List Json × List Char)
  | 0, _ => none
  | n + 1, cs => do
    let (v, rest) ← value? n cs
    match skipBlanks rest with
    | ']' :: rest => some ([v], rest)
    | ',' :: rest =>
      match skipBlanks rest with
      | ']' :: rest => some ([v], rest)
      | rest => do
        let (vs, rest) ← elements? n rest
        return (v :: vs, rest)
    | _ => none

/-- Reads the members of an object, of which there is at least one, and its closing brace; a comma
may stand before the brace. -/
def members? : Nat → List Char → Option (List (String × Json) × List Char)
  | 0, _ => none
  | n + 1, cs =>
    match skipBlanks cs with
    | '"' :: rest => do
      let (key, rest) ← string? rest
      match skipBlanks rest with
      | ':' :: rest => do
        let (v, rest) ← value? n rest
        let m := (String.ofList key, v)
        match skipBlanks rest with
        | '\x7d' :: rest => some ([m], rest)
        | ',' :: rest =>
          match skipBlanks rest with
          | '\x7d' :: rest => some ([m], rest)
          | rest => do
            let (ms, rest) ← members? n rest
            return (m :: ms, rest)
        | _ => none
      | _ => none
    | _ => none

end

/-- The value that a text starts with. -/
def ofText? (text : String) : Option Json :=
  let cs := text.toList
  (value? (2 * cs.length + 2) cs).map (·.1)

end Json

end SqlRender
