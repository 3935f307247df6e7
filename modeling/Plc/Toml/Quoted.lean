import Plc.Numeral.Integer

/-!
# Quoted text of TOML

Basic strings know escapes, literal strings do not; either kind may run over several lines between
triple quotes. Each reader starts after the opening quotes and returns what follows the closing ones.
-/

namespace Plc.Toml

/-! ## §1 Characters -/

/-- A character that may stand in a single-line string or a comment: no control character but the
tab. -/
def isLineChar (c : Char) : Bool := c = '\t' || (0x20 ≤ c.toNat && c.toNat ≠ 0x7F)

/-- A blank within a line. -/
def isLineBlank (c : Char) : Bool := c = ' ' || c = '\t'

/-- The text after a line end, if it begins with one. -/
def afterNewline? : List Char → Option (List Char)
  | '\n' :: rest => some rest
  | '\r' :: '\n' :: rest => some rest
  | _ => none

/-- The character with a code given in hexadecimal digits. -/
def hexChar? (digits : List Char) : Option Char :=
  (Numeral.natural? 16 digits).bind fun code =>
    if code.isValidChar then some (Char.ofNat code) else none

/-- The character that an escape stands for, read after the backslash, and the rest. -/
def escape? : List Char → Option (Char × List Char)
  | 'b' :: rest => some ('\x08', rest)
  | 't' :: rest => some ('\t', rest)
  | 'n' :: rest => some ('\n', rest)
  | 'f' :: rest => some ('\x0c', rest)
  | 'r' :: rest => some ('\r', rest)
  | 'e' :: rest => some ('\x1b', rest)
  | '"' :: rest => some ('"', rest)
  | '\\' :: rest => some ('\\', rest)
  | 'x' :: rest => (hexDigits? 2 rest).map fun c => (c, rest.drop 2)
  | 'u' :: rest => (hexDigits? 4 rest).map fun c => (c, rest.drop 4)
  | 'U' :: rest => (hexDigits? 8 rest).map fun c => (c, rest.drop 8)
  | _ => none
where
  /-- The character coded by exactly `count` digits. -/
  hexDigits? (count : Nat) (cs : List Char) : Option Char :=
    if count ≤ cs.length then hexChar? (cs.take count) else none

/-- Helper: a coded escape takes its letter and its digits. -/
private theorem coded_length {count : Nat} {letter c : Char} {cs rest : List Char}
    (h : (escape?.hexDigits? count cs).map (fun c => (c, cs.drop count)) = some (c, rest)) :
    rest.length < (letter :: cs).length := by
  obtain ⟨_, _, taken⟩ := Option.map_eq_some_iff.mp h
  obtain ⟨_, rfl⟩ := Prod.mk.inj taken
  rw [List.length_cons, List.length_drop]
  omega

/-- Helper: a plain escape takes its letter. -/
private theorem plain_length {letter c d : Char} {cs rest : List Char}
    (h : some (d, cs) = some (c, rest)) : rest.length < (letter :: cs).length := by
  obtain ⟨_, rfl⟩ := Prod.mk.inj (Option.some.inj h)
  exact Nat.lt_succ_self _

/-- An escape takes at least one character. -/
theorem escape?_length {cs rest : List Char} {c : Char} (h : escape? cs = some (c, rest)) :
    rest.length < cs.length := by
  unfold escape? at h
  split at h
  all_goals first
    | exact plain_length h
    | exact coded_length h
    | cases h

/-! ## §2 Single-line strings -/

/-- The rest of a basic string. -/
def basicRest? (acc : List Char) (cs : List Char) : Option (List Char × List Char) :=
  match cs with
  | '"' :: rest => some (acc.reverse, rest)
  | '\\' :: rest =>
    match _taken : escape? rest with
    | some (c, rest) => basicRest? (c :: acc) rest
    | none => none
  | c :: rest => if isLineChar c then basicRest? (c :: acc) rest else none
  | [] => none
termination_by cs.length
decreasing_by
  · have := escape?_length _taken
    simp only [List.length_cons]
    omega
  · simp

/-- The rest of a literal string. -/
def literalRest? (cs : List Char) : Option (List Char × List Char) :=
  match cs.dropWhile (fun c => isLineChar c && c ≠ '\'') with
  | '\'' :: rest => some (cs.takeWhile (fun c => isLineChar c && c ≠ '\''), rest)
  | _ => none

/-! ## §3 Strings of several lines -/

/-- Closing quotes: three of them end the text, and up to two before them belong to it. -/
def closing? (quote : Char) (cs : List Char) : Option (List Char × List Char) :=
  let count := min 5 (cs.takeWhile (· = quote)).length
  if 3 ≤ count then some (List.replicate (count - 3) quote, cs.drop count) else none

/-- The text after the blanks and line ends that a backslash at the end of a line removes. -/
def afterGap? (cs : List Char) : Option (List Char) :=
  match afterNewline? (cs.dropWhile isLineBlank) with
  | none => none
  | some rest =>
    let gap := rest.takeWhile fun c => isLineBlank c || c = '\n' || c = '\r'
    if pairs gap then some (rest.dropWhile fun c => isLineBlank c || c = '\n' || c = '\r') else none
where
  /-- Every carriage return stands before a line feed. -/
  pairs : List Char → Bool
    | [] => true
    | '\r' :: '\n' :: rest => pairs rest
    | '\r' :: _ => false
    | _ :: rest => pairs rest

/-- A line end takes at least one character. -/
theorem afterNewline?_length {cs rest : List Char} (h : afterNewline? cs = some rest) :
    rest.length < cs.length := by
  unfold afterNewline? at h
  split at h
  case h_1 =>
    obtain rfl := Option.some.inj h
    exact Nat.lt_succ_self _
  case h_2 =>
    obtain rfl := Option.some.inj h
    exact Nat.lt_trans (Nat.lt_succ_self _) (Nat.lt_succ_self _)
  case h_3 => cases h

/-- A gap takes at least a line end. -/
theorem afterGap?_length {cs rest : List Char} (h : afterGap? cs = some rest) :
    rest.length < cs.length := by
  unfold afterGap? at h
  split at h
  case h_1 => cases h
  case h_2 after found =>
    dsimp only at h
    split at h
    case isTrue =>
      obtain rfl := Option.some.inj h
      have first := (List.dropWhile_sublist (l := cs) isLineBlank).length_le
      have second := (List.dropWhile_sublist (l := after)
        (fun c => isLineBlank c || c = '\n' || c = '\r')).length_le
      have third := afterNewline?_length found
      omega
    case isFalse => cases h

/-- The rest of a basic string of several lines. -/
def longBasicRest? (acc : List Char) (cs : List Char) : Option (List Char × List Char) :=
  match closing? '"' cs with
  | some (quotes, rest) => some (acc.reverse ++ quotes, rest)
  | none =>
    match cs with
    | '\\' :: rest =>
      match _taken : escape? rest with
      | some (c, rest) => longBasicRest? (c :: acc) rest
      | none =>
        match _gap : afterGap? rest with
        | some rest => longBasicRest? acc rest
        | none => none
    | '\r' :: '\n' :: rest => longBasicRest? ('\n' :: '\r' :: acc) rest
    | c :: rest => if isLineChar c || c = '\n' then longBasicRest? (c :: acc) rest else none
    | [] => none
termination_by cs.length
decreasing_by
  · have := escape?_length _taken
    simp only [List.length_cons]
    omega
  · have := afterGap?_length _gap
    simp only [List.length_cons]
    omega
  · simp only [List.length_cons]
    omega
  · simp

/-- The rest of a literal string of several lines. -/
def longLiteralRest? (acc : List Char) (cs : List Char) : Option (List Char × List Char) :=
  match closing? '\'' cs with
  | some (quotes, rest) => some (acc.reverse ++ quotes, rest)
  | none =>
    match cs with
    | '\r' :: '\n' :: rest => longLiteralRest? ('\n' :: '\r' :: acc) rest
    | c :: rest => if isLineChar c || c = '\n' then longLiteralRest? (c :: acc) rest else none
    | [] => none

/-! ## §4 Strings -/

/-- The text without a line end at its start. -/
def dropFirstNewline (cs : List Char) : List Char := (afterNewline? cs).getD cs

/-- A string on one line, from its opening quote on, and the rest. -/
def shortString? : List Char → Option (List Char × List Char)
  | '"' :: rest => basicRest? [] rest
  | '\'' :: rest => literalRest? rest
  | _ => none

/-- Any string, from its opening quotes on, and the rest. -/
def string? : List Char → Option (List Char × List Char)
  | '"' :: '"' :: '"' :: rest => longBasicRest? [] (dropFirstNewline rest)
  | '\'' :: '\'' :: '\'' :: rest => longLiteralRest? [] (dropFirstNewline rest)
  | cs => shortString? cs

end Plc.Toml
