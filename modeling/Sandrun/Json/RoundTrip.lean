import Sandrun.Json.Basic

/-!
# `json.load` reads back what `json.dump` wrote

The scanner of `json.decoder` undoes the encoder of `json.encoder` with `indent=4` and
`ensure_ascii=True`, on every value: `loads (dump 0 v) = some v`.

The proof follows the two layers of the format.  For strings, each character's escape
is scanned back to the character (`scanString_escapeChar`): the one-letter escapes
directly, printable ASCII as itself, a `\uXXXX` escape through its four hexadecimal
digits, and a character beyond the Basic Multilingual Plane through the surrogate pair
that `encode_basestring_ascii` splits it into and `Py_UNICODE_JOIN_SURROGATES` joins.
For containers, one lemma per level of the recursive descent (value, array items,
object members), each at a recursion budget at least the `size` of what it reads; the
new lines of the indentation are whitespace the scanner skips.

## Main definitions

* `JVal.size` — the levels of recursion the scanner needs for a value.

## Main results

* `scanString_escaped` — the scanner decodes an escaped string.
* `parseValue_dump` — the scanner reads a dumped value back, with the text after it.
* `loads_dump` — **`json.loads(json.dumps(v, indent=4)) == v`.**
-/

namespace Sandrun.Json

/-! ### Hexadecimal escapes and surrogate pairs -/

theorem hexVal_hexDigit {d : Nat} (h : d < 16) : hexVal (hexDigit d) = some d := by
  have : ∀ d < 16, hexVal (hexDigit d) = some d := by decide
  exact this d h

theorem hex4Val_digits {n : Nat} (h : n < 0x10000) :
    hex4Val (hexDigit (n / 4096 % 16)) (hexDigit (n / 256 % 16)) (hexDigit (n / 16 % 16))
      (hexDigit (n % 16)) = some n := by
  simp only [hex4Val, hexVal_hexDigit (Nat.mod_lt _ (by decide : 16 > 0)), Option.pure_def,
    Option.bind_eq_bind, Option.some_bind, Option.some.injEq]
  omega

/-- `0xd800 | ((n >> 10) & 0x3ff)` is the sum, for the offsets `n < 2^20` of the
supplementary planes. -/
theorem high_surrogate_eq {n : Nat} (h : n < 0x100000) :
    0xd800 ||| ((n >>> 10) &&& 0x3ff) = 0xd800 + n / 1024 := by
  have h1 : (n >>> 10) &&& 0x3ff = n / 1024 := by
    rw [Nat.shiftRight_eq_div_pow, show (0x3ff : Nat) = 2 ^ 10 - 1 from rfl,
      Nat.and_pow_two_sub_one_eq_mod, Nat.mod_eq_of_lt (by omega)]
  rw [h1, show (0xd800 : Nat) = 2 ^ 10 * 54 from rfl, Nat.mul_add_lt_is_or (by omega)]

theorem low_surrogate_eq (n : Nat) : 0xdc00 ||| (n &&& 0x3ff) = 0xdc00 + n % 1024 := by
  rw [show (0x3ff : Nat) = 2 ^ 10 - 1 from rfl, Nat.and_pow_two_sub_one_eq_mod,
    show (0xdc00 : Nat) = 2 ^ 10 * 55 from rfl, Nat.mul_add_lt_is_or (Nat.mod_lt _ (by decide))]

theorem joinSurrogates_eq {a b : Nat} (ha : a < 1024) (hb : b < 1024) :
    joinSurrogates (0xd800 + a) (0xdc00 + b) = 0x10000 + a * 1024 + b := by
  have hm : ∀ x, x &&& 0x3ff = x % 2 ^ 10 := fun x => Nat.and_pow_two_sub_one_eq_mod x 10
  rw [joinSurrogates, hm, hm, Nat.shiftLeft_eq, Nat.mul_comm, ← Nat.mul_add_lt_is_or] <;> omega

theorem chr?_toNat (c : Char) : chr? c.toNat = some c := by
  rw [chr?, if_pos (show c.toNat.isValidChar from c.valid), Char.ofNat_toNat]

/-! ### Strings -/

theorem scanString_backslash (rest : List Char) : scanString ('\\' :: rest) = scanEscape rest :=
  rfl

theorem scanEscape_u (rest : List Char) : scanEscape ('u' :: rest) = scanUnicode rest := rfl

theorem scanUnicode_cons (a b c d : Char) (rest : List Char) :
    scanUnicode (a :: b :: c :: d :: rest) =
      match hex4Val a b c d with
      | none => none
      | some u =>
        if 0xd800 ≤ u ∧ u ≤ 0xdbff then scanLowSurrogate u rest
        else (chr? u).bind fun ch => prepend ch (scanString rest) :=
  rfl

theorem scanLowSurrogate_cons (high : Nat) (s t e f g h : Char) (rest : List Char) :
    scanLowSurrogate high (s :: t :: e :: f :: g :: h :: rest) =
      if s = '\\' ∧ t = 'u' then
        match hex4Val e f g h with
        | none => none
        | some low =>
          if 0xdc00 ≤ low ∧ low ≤ 0xdfff then
            (chr? (joinSurrogates high low)).bind fun ch => prepend ch (scanString rest)
          else none
      else none :=
  rfl

theorem scanString_plain {c : Char} (h1 : c ≠ '"') (h2 : c ≠ '\\') (h3 : ¬ c.toNat < 0x20)
    (rest : List Char) : scanString (c :: rest) = prepend c (scanString rest) := by
  rw [scanString.eq_2, if_neg h1, if_neg h2, if_neg h3]

/-- The scanner after `\u` reads the four digits `uEscape` writes. -/
theorem scanString_uEscape_eq (n : Nat) (h : n < 0x10000) (rest : List Char) :
    scanString (uEscape n ++ rest) =
      if 0xd800 ≤ n ∧ n ≤ 0xdbff then scanLowSurrogate n rest
      else (chr? n).bind fun ch => prepend ch (scanString rest) := by
  simp only [uEscape, List.cons_append, List.nil_append, scanString_backslash, scanEscape_u]
  rw [scanUnicode_cons, hex4Val_digits h]

theorem scanString_uEscape {n : Nat} (h : n < 0x10000) (hn : ¬(0xd800 ≤ n ∧ n ≤ 0xdbff))
    (rest : List Char) :
    scanString (uEscape n ++ rest) = (chr? n).bind fun ch => prepend ch (scanString rest) := by
  rw [scanString_uEscape_eq n h, if_neg hn]

theorem scanString_surrogates {high low : Nat} (hh : 0xd800 ≤ high ∧ high ≤ 0xdbff)
    (hl : 0xdc00 ≤ low ∧ low ≤ 0xdfff) (rest : List Char) :
    scanString (uEscape high ++ uEscape low ++ rest) =
      (chr? (joinSurrogates high low)).bind fun ch => prepend ch (scanString rest) := by
  rw [List.append_assoc, scanString_uEscape_eq high (by omega), if_pos hh]
  simp only [uEscape, List.cons_append, List.nil_append]
  rw [scanLowSurrogate_cons, if_pos ⟨rfl, rfl⟩, hex4Val_digits (by omega)]
  exact if_pos hl

/-- A one-letter escape is read back by `BACKSLASH`, and is not the `u` of `\uXXXX`. -/
theorem unescape_shortEscape {c e : Char} (h : shortEscape c = some e) :
    unescape e = some c ∧ e ≠ 'u' := by
  unfold shortEscape at h
  split at h <;> cases h <;> decide

theorem shortEscape_quote : shortEscape '"' = some '"' := rfl

theorem shortEscape_backslash : shortEscape '\\' = some '\\' := rfl

/-- Each character's escape scans back to the character. -/
theorem scanString_escapeChar (c : Char) (rest : List Char) :
    scanString (escapeChar c ++ rest) = prepend c (scanString rest) := by
  have hc : c.toNat < 0xd800 ∨ (0xdfff < c.toNat ∧ c.toNat < 0x110000) := c.valid
  unfold escapeChar
  cases hs : shortEscape c with
  | some e =>
    obtain ⟨he, hu⟩ := unescape_shortEscape hs
    rw [List.cons_append, scanString_backslash, List.cons_append, scanEscape.eq_2, if_neg hu, he]
    rfl
  | none =>
    have h1 : c ≠ '"' := fun h => by rw [h, shortEscape_quote] at hs; cases hs
    have h2 : c ≠ '\\' := fun h => by rw [h, shortEscape_backslash] at hs; cases hs
    dsimp only
    by_cases hp : ' ' ≤ c ∧ c ≤ '~'
    · rw [if_pos hp]; exact scanString_plain h1 h2 (Nat.not_lt.2 hp.1) rest
    rw [if_neg hp]
    by_cases hb : c.toNat < 0x10000
    · rw [if_pos hb, scanString_uEscape hb (by omega), chr?_toNat]; rfl
    rw [if_neg hb]
    have hlt : c.toNat - 0x10000 < 0x100000 := by omega
    generalize hn : c.toNat - 0x10000 = n at hlt ⊢
    rw [high_surrogate_eq hlt, low_surrogate_eq,
      @scanString_surrogates (0xd800 + n / 1024) (0xdc00 + n % 1024) (by omega) (by omega),
      joinSurrogates_eq (by omega) (Nat.mod_lt _ (by decide)),
      show 0x10000 + n / 1024 * 1024 + n % 1024 = c.toNat by omega, chr?_toNat]
    rfl

theorem scanString_escaped (s rest : List Char) :
    scanString (s.flatMap escapeChar ++ '"' :: rest) = some (s, rest) := by
  induction s with
  | nil => rfl
  | cons c s ih => rw [List.flatMap_cons, List.append_assoc, scanString_escapeChar, ih]; rfl

theorem quote_append (s : String) (rest : List Char) :
    quote s ++ rest = '"' :: (s.toList.flatMap escapeChar ++ '"' :: rest) := by
  simp [quote]

/-! ### Whitespace -/

theorem skipWs_cons_ws {c : Char} (h : isWs c = true) (cs : List Char) :
    skipWs (c :: cs) = skipWs cs :=
  List.dropWhile_cons_of_pos h

theorem skipWs_cons {c : Char} (h : isWs c = false) (cs : List Char) :
    skipWs (c :: cs) = c :: cs :=
  List.dropWhile_cons_of_neg (by simp [h])

theorem skipWs_ws_append {ws : List Char} (h : ∀ c ∈ ws, isWs c = true) (cs : List Char) :
    skipWs (ws ++ cs) = skipWs cs := by
  induction ws with
  | nil => rfl
  | cons c ws ih =>
    rw [List.cons_append, skipWs_cons_ws (h c (List.mem_cons_self c ws)),
      ih fun d hd => h d (List.mem_cons_of_mem c hd)]

theorem newline_ws (level : Nat) : ∀ c ∈ newline level, isWs c = true := by
  intro c hc
  simp only [newline, List.mem_cons, List.mem_replicate] at hc
  rcases hc with rfl | ⟨-, rfl⟩ <;> rfl

theorem skipWs_newline (level : Nat) (cs : List Char) : skipWs (newline level ++ cs) = skipWs cs :=
  skipWs_ws_append (newline_ws level) cs

/-- A dumped value starts with a character that is not whitespace and closes nothing. -/
theorem dump_head (level : Nat) (v : JVal) :
    ∃ c t, dump level v = c :: t ∧ isWs c = false ∧ c ≠ ']' ∧ c ≠ '}' := by
  rcases v with _ | ⟨_ | _⟩ | s | ⟨_ | ⟨v, vs⟩⟩ | ⟨_ | ⟨⟨k, v⟩, kvs⟩⟩ <;>
    exact ⟨_, _, rfl, rfl, by decide, by decide⟩

theorem skipWs_dump (level : Nat) (v : JVal) (cs : List Char) :
    skipWs (dump level v ++ cs) = dump level v ++ cs := by
  obtain ⟨c, t, h, hw, -, -⟩ := dump_head level v
  rw [h, List.cons_append, skipWs_cons hw]

theorem head?_dump (level : Nat) (v : JVal) (cs : List Char) :
    (dump level v ++ cs).head? ≠ some ']' ∧ (dump level v ++ cs).head? ≠ some '}' := by
  obtain ⟨c, t, h, -, h1, h2⟩ := dump_head level v
  rw [h]
  exact ⟨fun e => h1 (Option.some.inj e), fun e => h2 (Option.some.inj e)⟩

/-! ### Values -/

mutual

/-- The levels of recursion the scanner needs to read a value: one for the value, and
one for each item or member of a container beside what the item needs. -/
def JVal.size : JVal → Nat
  | .arr items => 1 + sizeItems items
  | .obj members => 1 + sizeMembers members
  | _ => 1

/-- `JVal.size` summed over the items of an array. -/
def sizeItems : List JVal → Nat
  | [] => 0
  | v :: vs => 1 + v.size + sizeItems vs

/-- `JVal.size` summed over the members of an object. -/
def sizeMembers : List (String × JVal) → Nat
  | [] => 0
  | (_, v) :: kvs => 1 + v.size + sizeMembers kvs

end

theorem JVal.size_pos (v : JVal) : 0 < v.size := by
  cases v <;> simp only [JVal.size] <;> omega

/-- A nonempty array's items as `dump` writes them between its brackets' lines. -/
def itemsText (level : Nat) : List JVal → List Char
  | [] => []
  | v :: vs => dump level v ++ dumpItems level vs

/-- A nonempty object's members as `dump` writes them between its braces' lines. -/
def membersText (level : Nat) : List (String × JVal) → List Char
  | [] => []
  | (k, v) :: kvs => quote k ++ [':', ' '] ++ dump level v ++ dumpMembers level kvs

theorem skipWs_quote (k : String) (cs : List Char) : skipWs (quote k ++ cs) = quote k ++ cs := by
  rw [quote_append, skipWs_cons (rfl : isWs '"' = false)]

theorem head?_quote (k : String) (cs : List Char) : (quote k ++ cs).head? = some '"' := by
  rw [quote_append, List.head?_cons]

mutual

theorem parseValue_dump : ∀ (v : JVal) (level n : Nat) (rest : List Char), v.size ≤ n →
    parseValue n (dump level v ++ rest) = some (v, rest)
  | v, _, 0, _, h => absurd h (Nat.not_le.2 v.size_pos)
  | .null, _, n + 1, rest, _ => by
    show parseValue (n + 1) ('n' :: 'u' :: 'l' :: 'l' :: rest) = _
    simp [parseValue.eq_3, literal]
  | .bool true, _, n + 1, rest, _ => by
    show parseValue (n + 1) ('t' :: 'r' :: 'u' :: 'e' :: rest) = _
    simp [parseValue.eq_3, literal]
  | .bool false, _, n + 1, rest, _ => by
    show parseValue (n + 1) ('f' :: 'a' :: 'l' :: 's' :: 'e' :: rest) = _
    simp [parseValue.eq_3, literal]
  | .str s, level, n + 1, rest, _ => by
    rw [dump, quote_append, parseValue.eq_3, if_pos rfl, scanString_escaped]
    rfl
  | .arr [], _, n + 1, rest, _ => by
    show parseValue (n + 1) ('[' :: ']' :: rest) = _
    simp [parseValue.eq_3, skipWs_cons (rfl : isWs ']' = false)]
  | .arr (v :: vs), level, n + 1, rest, h => by
    simp only [JVal.size] at h
    have hi := parseItems_dump (v :: vs) (level + 1) n (newline level) rest
      (List.cons_ne_nil v vs) (by omega) (newline_ws level)
    simp only [itemsText, List.append_assoc] at hi
    simp only [dump, List.append_assoc, List.cons_append, List.nil_append]
    rw [parseValue.eq_3, if_neg (by decide), if_pos rfl]
    dsimp only
    rw [skipWs_newline, skipWs_dump, if_neg (head?_dump _ _ _).1, hi]
    rfl
  | .obj [], _, n + 1, rest, _ => by
    show parseValue (n + 1) ('{' :: '}' :: rest) = _
    simp [parseValue.eq_3, skipWs_cons (rfl : isWs '}' = false)]
  | .obj ((k, v) :: kvs), level, n + 1, rest, h => by
    simp only [JVal.size] at h
    have hm := parseMembers_dump ((k, v) :: kvs) (level + 1) n (newline level) rest
      (List.cons_ne_nil _ kvs) (by omega) (newline_ws level)
    simp only [membersText, List.append_assoc, List.cons_append, List.nil_append] at hm
    simp only [dump, List.append_assoc, List.cons_append, List.nil_append]
    rw [parseValue.eq_3, if_neg (by decide), if_neg (by decide), if_pos rfl]
    dsimp only
    rw [skipWs_newline, skipWs_quote, head?_quote, if_neg (by decide), hm]
    rfl

theorem parseItems_dump : ∀ (items : List JVal) (level n : Nat) (ws rest : List Char),
    items ≠ [] → sizeItems items ≤ n → (∀ c ∈ ws, isWs c = true) →
    parseItems n (itemsText level items ++ (ws ++ ']' :: rest)) = some (items, rest)
  | [], _, _, _, _, h, _, _ => absurd rfl h
  | _ :: _, _, 0, _, _, _, h, _ => absurd h (by simp only [sizeItems]; omega)
  | [v], level, n + 1, ws, rest, _, h, hws => by
    simp only [sizeItems] at h
    rw [itemsText, dumpItems, List.append_nil, parseItems.eq_2,
      parseValue_dump v level n _ (by omega)]
    simp [skipWs_ws_append hws, skipWs_cons (rfl : isWs ']' = false)]
  | v :: w :: ws', level, n + 1, ws, rest, _, h, hws => by
    simp only [sizeItems] at h
    have hi := parseItems_dump (w :: ws') level n ws rest (List.cons_ne_nil w ws') (by
      simp only [sizeItems]; omega) hws
    simp only [itemsText, List.append_assoc] at hi
    simp only [itemsText, dumpItems, List.append_assoc, List.cons_append]
    rw [parseItems.eq_2, parseValue_dump v level n _ (by omega)]
    simp only [Option.some_bind, skipWs_cons (rfl : isWs ',' = false)]
    rw [if_pos trivial, skipWs_newline, skipWs_dump, hi]
    rfl

theorem parseMembers_dump : ∀ (members : List (String × JVal)) (level n : Nat)
    (ws rest : List Char), members ≠ [] → sizeMembers members ≤ n →
    (∀ c ∈ ws, isWs c = true) →
    parseMembers n (membersText level members ++ (ws ++ '}' :: rest)) = some (members, rest)
  | [], _, _, _, _, h, _, _ => absurd rfl h
  | _ :: _, _, 0, _, _, _, h, _ => absurd h (by simp only [sizeMembers]; omega)
  | [(k, v)], level, n + 1, ws, rest, _, h, hws => by
    simp only [sizeMembers] at h
    simp only [membersText, dumpMembers, List.append_nil, List.append_assoc, List.cons_append,
      List.nil_append, quote_append]
    rw [parseMembers.eq_3, if_neg (not_not.2 rfl), scanString_escaped]
    simp only [Option.some_bind, skipWs_cons (rfl : isWs ':' = false), List.head?_cons,
      List.tail_cons, skipWs_cons_ws (rfl : isWs ' ' = true), skipWs_dump, ne_eq,
      not_true_eq_false, if_false, parseValue_dump v level n _ (by omega),
      skipWs_ws_append hws, skipWs_cons (rfl : isWs '}' = false)]
    rfl
  | (k, v) :: (k', v') :: kvs, level, n + 1, ws, rest, _, h, hws => by
    simp only [sizeMembers] at h
    have hm := parseMembers_dump ((k', v') :: kvs) level n ws rest (List.cons_ne_nil _ kvs) (by
      simp only [sizeMembers]; omega) hws
    simp only [membersText, List.append_assoc, List.cons_append, List.nil_append] at hm
    simp only [membersText, dumpMembers, List.append_assoc, List.cons_append, List.nil_append,
      quote_append]
    rw [parseMembers.eq_3, if_neg (not_not.2 rfl), scanString_escaped]
    simp only [Option.some_bind, skipWs_cons (rfl : isWs ':' = false), List.head?_cons,
      List.tail_cons, skipWs_cons_ws (rfl : isWs ' ' = true), skipWs_dump, ne_eq,
      not_true_eq_false, if_false, parseValue_dump v level n _ (by omega),
      skipWs_cons (rfl : isWs ',' = false)]
    rw [if_pos trivial, skipWs_newline, ← quote_append, skipWs_quote, hm]
    rfl

end

/-! ### The whole text -/

mutual

theorem size_le_dump : ∀ (v : JVal) (level : Nat), v.size ≤ (dump level v).length
  | .null, _ => by simp [JVal.size, dump]
  | .bool true, _ => by simp [JVal.size, dump]
  | .bool false, _ => by simp [JVal.size, dump]
  | .str s, _ => by simp [JVal.size, dump, quote]
  | .arr [], _ => by simp [JVal.size, sizeItems, dump]
  | .arr (v :: vs), level => by
    have := size_le_dump v (level + 1)
    have := sizeItems_le vs (level + 1)
    simp [JVal.size, sizeItems, dump, newline]
    omega
  | .obj [], _ => by simp [JVal.size, sizeMembers, dump]
  | .obj ((k, v) :: kvs), level => by
    have := size_le_dump v (level + 1)
    have := sizeMembers_le kvs (level + 1)
    simp [JVal.size, sizeMembers, dump, newline]
    omega

theorem sizeItems_le : ∀ (vs : List JVal) (level : Nat), sizeItems vs ≤ (dumpItems level vs).length
  | [], _ => le_refl 0
  | v :: vs, level => by
    have := size_le_dump v level
    have := sizeItems_le vs level
    simp [sizeItems, dumpItems]
    omega

theorem sizeMembers_le : ∀ (kvs : List (String × JVal)) (level : Nat),
    sizeMembers kvs ≤ (dumpMembers level kvs).length
  | [], _ => le_refl 0
  | (k, v) :: kvs, level => by
    have := size_le_dump v level
    have := sizeMembers_le kvs level
    simp [sizeMembers, dumpMembers]
    omega

end

/-- **What `json.dump(v, f, indent=4)` writes, `json.load(f)` reads back as `v`.** -/
theorem loads_dump (v : JVal) : loads (dump 0 v) = some v := by
  have hs : skipWs (dump 0 v) = dump 0 v := by simpa using skipWs_dump 0 v []
  have hp : parseValue ((dump 0 v).length + 1) (dump 0 v) = some (v, []) := by
    simpa using parseValue_dump v 0 _ [] (Nat.le_succ_of_le (size_le_dump v 0))
  rw [loads, hs, hp]
  rfl

end Sandrun.Json
