import Mathlib.Data.List.Basic

/-!
# JSON as the job ledger writes and reads it

`_save_jobs` writes the job table with `json.dump(data, f, indent=4)`, and `_load_jobs`
reads it back with `json.load(f)`.  This module is the part of Python's `json` package
that those two calls run: the encoder of `json.encoder` with `indent=4`, the default
separators `(',', ': ')` and the default `ensure_ascii=True`; and the scanner of
`json.decoder` as its C accelerator implements it, which is the one CPython runs.

A string is a Lean `String`, a sequence of Unicode scalar values.  The strings the queue
stores are decoded text (form fields, the output of the job's process), which holds no
surrogate code point; a `\uXXXX` escape that decodes to a lone surrogate is therefore
outside the model, and the scanner gives `none` there as it does where Python raises.
Numbers are not modelled: no ledger holds one, and the scanner gives `none` on one.

## Main definitions

* `JVal` — the values: `None`, booleans, strings, lists, and objects with their members
  in text order.
* `escapeChar`, `quote`, `dump` — `encode_basestring_ascii` and `_make_iterencode`.
* `scanString`, `parseValue`, `loads` — `scanstring`, `scan_once` and `json.loads`.
-/

namespace Sandrun.Json

/-- A JSON value of the kinds the job ledger holds. -/
inductive JVal
  /-- `null`, Python's `None`. -/
  | null
  /-- `true` or `false`. -/
  | bool (b : Bool)
  /-- A string. -/
  | str (s : String)
  /-- An array, a Python `list`. -/
  | arr (items : List JVal)
  /-- An object as the text has it: its members in order, before `dict(pairs)` keeps
  the last value of a repeated key. -/
  | obj (members : List (String × JVal))
  deriving Repr, Inhabited

/-! ### The encoder -/

/-- The lowercase hexadecimal digit of `d < 16`. -/
def hexDigit (d : Nat) : Char := if d < 10 then Char.ofNat (48 + d) else Char.ofNat (87 + d)

/-- `'\\u{0:04x}'.format(n)` for `n < 0x10000`. -/
def uEscape (n : Nat) : List Char :=
  ['\\', 'u', hexDigit (n / 4096 % 16), hexDigit (n / 256 % 16), hexDigit (n / 16 % 16),
    hexDigit (n % 16)]

/-- The entries of `ESCAPE_DCT` with a one-letter escape: the letter after the
backslash. -/
def shortEscape : Char → Option Char
  | '\\' => some '\\'
  | '"' => some '"'
  | '\x08' => some 'b'
  | '\x0c' => some 'f'
  | '\n' => some 'n'
  | '\r' => some 'r'
  | '\t' => some 't'
  | _ => none

/-- The text `py_encode_basestring_ascii` writes for one character: its one-letter escape
from `ESCAPE_DCT`, the character itself when it is printable ASCII, and otherwise a
`\uXXXX` escape (the other entries of `ESCAPE_DCT` are those of the control
characters), or two for a character beyond the Basic Multilingual Plane. -/
def escapeChar (c : Char) : List Char :=
  match shortEscape c with
  | some e => ['\\', e]
  | none =>
    if ' ' ≤ c ∧ c ≤ '~' then [c]
    else if c.toNat < 0x10000 then uEscape c.toNat
    else
      let n := c.toNat - 0x10000
      uEscape (0xd800 ||| ((n >>> 10) &&& 0x3ff)) ++ uEscape (0xdc00 ||| (n &&& 0x3ff))

/-- `encode_basestring_ascii(s)`: the string between double quotes, each character
escaped. -/
def quote (s : String) : List Char := '"' :: s.toList.flatMap escapeChar ++ ['"']

/-- The new line `indent=4` starts at `level`: `'\n' + ' ' * 4 * level`. -/
def newline (level : Nat) : List Char := '\n' :: List.replicate (4 * level) ' '

mutual

/-- `_iterencode(o, level)` with `indent=4`, its chunks joined: an empty container is
`[]` or `{}`, and a nonempty one puts each item on a new line one level deeper and the
closing bracket on a new line at its own level. -/
def dump (level : Nat) : JVal → List Char
  | .null => "null".toList
  | .bool true => "true".toList
  | .bool false => "false".toList
  | .str s => quote s
  | .arr [] => ['[', ']']
  | .arr (v :: vs) =>
    '[' :: newline (level + 1) ++ dump (level + 1) v ++ dumpItems (level + 1) vs ++
      newline level ++ [']']
  | .obj [] => ['{', '}']
  | .obj ((k, v) :: kvs) =>
    '{' :: newline (level + 1) ++ quote k ++ [':', ' '] ++ dump (level + 1) v ++
      dumpMembers (level + 1) kvs ++ newline level ++ ['}']

/-- The items of `_iterencode_list` after the first, each after the separator `','`
and a new line. -/
def dumpItems (level : Nat) : List JVal → List Char
  | [] => []
  | v :: vs => ',' :: newline level ++ dump level v ++ dumpItems level vs

/-- The members of `_iterencode_dict` after the first, each after the separator `','`
and a new line, its key followed by the key separator `': '`. -/
def dumpMembers (level : Nat) : List (String × JVal) → List Char
  | [] => []
  | (k, v) :: kvs => ',' :: newline level ++ quote k ++ [':', ' '] ++ dump level v ++
    dumpMembers level kvs

end

/-- What `json.dumps([None, 'é', '😀'], indent=4)` returns. -/
example : dump 0 (.arr [.null, .str "é", .str "😀"]) =
    "[\n    null,\n    \"\\u00e9\",\n    \"\\ud83d\\ude00\"\n]".toList := by
  decide

/-! ### The scanner -/

/-- The whitespace of `WHITESPACE`: space, tab, line feed, carriage return. -/
def isWs (c : Char) : Bool := c = ' ' || c = '\t' || c = '\n' || c = '\r'

/-- `WHITESPACE.match(s, end).end()`: the text after the whitespace it starts with. -/
def skipWs (cs : List Char) : List Char := cs.dropWhile isWs

/-- The value of a hexadecimal digit of either case. -/
def hexVal (c : Char) : Option Nat :=
  if '0' ≤ c ∧ c ≤ '9' then some (c.toNat - 48)
  else if 'a' ≤ c ∧ c ≤ 'f' then some (c.toNat - 87)
  else if 'A' ≤ c ∧ c ≤ 'F' then some (c.toNat - 55)
  else none

/-- The four digits of a `\uXXXX` escape; `none` is "Invalid \uXXXX escape". -/
def hex4Val (a b c d : Char) : Option Nat := do
  let a ← hexVal a
  let b ← hexVal b
  let c ← hexVal c
  let d ← hexVal d
  pure (((a * 16 + b) * 16 + c) * 16 + d)

/-- The character of a one-letter escape, the table `BACKSLASH`; `none` is "Invalid
\escape". -/
def unescape : Char → Option Char
  | '"' => some '"'
  | '\\' => some '\\'
  | '/' => some '/'
  | 'b' => some '\x08'
  | 'f' => some '\x0c'
  | 'n' => some '\n'
  | 'r' => some '\r'
  | 't' => some '\t'
  | _ => none

/-- `Py_UNICODE_JOIN_SURROGATES(high, low)`. -/
def joinSurrogates (high low : Nat) : Nat := (((high &&& 0x3ff) <<< 10) ||| (low &&& 0x3ff)) + 0x10000

/-- `chr(u)`, `none` for a surrogate code point. -/
def chr? (u : Nat) : Option Char := if u.isValidChar then some (Char.ofNat u) else none

/-- A decoded character in front of what the rest of the string decodes to. -/
def prepend (ch : Char) : Option (List Char × List Char) → Option (List Char × List Char) :=
  Option.map fun p => (ch :: p.1, p.2)

mutual

/-- `scanstring(s, end)` after the opening quote: the decoded characters and the text
after the closing quote.  An unescaped control character and an unterminated string are
errors. -/
def scanString : List Char → Option (List Char × List Char)
  | [] => none
  | c :: rest =>
    if c = '"' then some ([], rest)
    else if c = '\\' then scanEscape rest
    else if c.toNat < 0x20 then none
    else prepend c (scanString rest)

/-- The scanner after a backslash: a `\uXXXX` escape, or a one-letter one. -/
def scanEscape : List Char → Option (List Char × List Char)
  | [] => none
  | e :: rest =>
    if e = 'u' then scanUnicode rest
    else (unescape e).bind fun ch => prepend ch (scanString rest)

/-- The scanner after `\u`: four hexadecimal digits, and for a high surrogate the low
one that has to follow it. -/
def scanUnicode : List Char → Option (List Char × List Char)
  | a :: b :: c :: d :: rest =>
    match hex4Val a b c d with
    | none => none
    | some u =>
      if 0xd800 ≤ u ∧ u ≤ 0xdbff then scanLowSurrogate u rest
      else (chr? u).bind fun ch => prepend ch (scanString rest)
  | _ => none

/-- The scanner after the escape of the high surrogate `high`: a `\uXXXX` escape of a
low surrogate makes one character with it; anything else leaves `high` a lone
surrogate. -/
def scanLowSurrogate (high : Nat) : List Char → Option (List Char × List Char)
  | s :: t :: e :: f :: g :: h :: rest =>
    if s = '\\' ∧ t = 'u' then
      match hex4Val e f g h with
      | none => none
      | some low =>
        if 0xdc00 ≤ low ∧ low ≤ 0xdfff then
          (chr? (joinSurrogates high low)).bind fun ch => prepend ch (scanString rest)
        else none
    else none
  | _ => none

end

/-- `string[idx:idx + len(word)] == word`: a literal's remaining letters, and the text
after them. -/
def literal (word : List Char) (v : JVal) (cs : List Char) : Option (JVal × List Char) :=
  if word.isPrefixOf cs then some (v, cs.drop word.length) else none

mutual

/-- `scan_once(s, idx)`, with at most `fuel` levels of recursion: a string, an array,
an object or a literal, and the text after it. -/
def parseValue : Nat → List Char → Option (JVal × List Char)
  | 0, _ => none
  | _ + 1, [] => none
  | n + 1, c :: cs =>
    if c = '"' then (scanString cs).map fun p => (.str ⟨p.1⟩, p.2)
    else if c = '[' then
      let cs := skipWs cs
      if cs.head? = some ']' then some (.arr [], cs.tail)
      else (parseItems n cs).map fun p => (.arr p.1, p.2)
    else if c = '{' then
      let cs := skipWs cs
      if cs.head? = some '}' then some (.obj [], cs.tail)
      else (parseMembers n cs).map fun p => (.obj p.1, p.2)
    else if c = 'n' then literal ['u', 'l', 'l'] .null cs
    else if c = 't' then literal ['r', 'u', 'e'] (.bool true) cs
    else if c = 'f' then literal ['a', 'l', 's', 'e'] (.bool false) cs
    else none

/-- The loop of `JSONArray` from its first value: a value, whitespace, then `]`, or `,`
and whitespace before the next value. -/
def parseItems : Nat → List Char → Option (List JVal × List Char)
  | 0, _ => none
  | n + 1, cs => (parseValue n cs).bind fun p =>
    match skipWs p.2 with
    | c :: rest =>
      if c = ']' then some ([p.1], rest)
      else if c = ',' then (parseItems n (skipWs rest)).map fun q => (p.1 :: q.1, q.2)
      else none
    | [] => none

/-- The loop of `JSONObject` from its first member: a quoted key, `:` between
whitespace, a value, whitespace, then the closing brace, or `,` and whitespace before
the next key. -/
def parseMembers : Nat → List Char → Option (List (String × JVal) × List Char)
  | 0, _ => none
  | _ + 1, [] => none
  | n + 1, c :: cs =>
    if c ≠ '"' then none
    else (scanString cs).bind fun p =>
      let rest := skipWs p.2
      if rest.head? ≠ some ':' then none
      else (parseValue n (skipWs rest.tail)).bind fun q =>
        match skipWs q.2 with
        | c :: rest =>
          if c = '}' then some ([(⟨p.1⟩, q.1)], rest)
          else if c = ',' then
            (parseMembers n (skipWs rest)).map fun r => ((⟨p.1⟩, q.1) :: r.1, r.2)
          else none
        | [] => none

end

/-- `json.loads(s)`: one value between whitespace and nothing else, "Extra data"
otherwise.  The recursion is given one level more than the text has characters. -/
def loads (cs : List Char) : Option JVal :=
  match parseValue (cs.length + 1) (skipWs cs) with
  | some (v, rest) => if skipWs rest = [] then some v else none
  | none => none

end Sandrun.Json
