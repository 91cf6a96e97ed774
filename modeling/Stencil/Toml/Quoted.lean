import Stencil.Json.Read
import Stencil.Toml.Basic

/-!
# TOML strings

Basic strings with escapes, literal strings without, each on one line or on
several. A line break right behind the opening quotes of several lines is left
out, and so is everything blank behind a backslash at the end of a line.
-/

set_option autoImplicit false

namespace Stencil.Toml

def isControl (c : Char) : Bool := (c.toNat < 0x20 && c != '\t') || c.toNat == 0x7F

def readScalar? : (n acc : Nat) → List Char → Option (Char × List Char)
  | 0, acc, r => if acc.isValidChar then some (Char.ofNat acc, r) else none
  | _ + 1, _, [] => none
  | n + 1, acc, c :: r => do readScalar? n (16 * acc + (← Json.hexValue? c)) r

def readEscape? : List Char → Option (Char × List Char)
  | 'b' :: r => some (Char.ofNat 0x08, r)
  | 't' :: r => some ('\t', r)
  | 'n' :: r => some ('\n', r)
  | 'f' :: r => some (Char.ofNat 0x0C, r)
  | 'r' :: r => some ('\r', r)
  | 'e' :: r => some (Char.ofNat 0x1B, r)
  | '"' :: r => some ('"', r)
  | '\\' :: r => some ('\\', r)
  | 'x' :: r => readScalar? 2 0 r
  | 'u' :: r => readScalar? 4 0 r
  | 'U' :: r => readScalar? 8 0 r
  | _ => none

def readLine? (quote : Char) : (fuel : Nat) → List Char → Option (List Char × List Char)
  | 0, _ => none
  | _ + 1, [] => none
  | fuel + 1, c :: r =>
    if c = quote then some ([], r)
    else if c = '\\' ∧ quote = '"' then do
      let (d, r) ← readEscape? r
      let (t, r) ← readLine? quote fuel r
      some (d :: t, r)
    else if isControl c then none
    else do
      let (t, r) ← readLine? quote fuel r
      some (c :: t, r)

def afterBreak? : List Char → Option (List Char)
  | '\n' :: r => some r
  | '\r' :: '\n' :: r => some r
  | _ => none

def isSpace (c : Char) : Bool := c == ' ' || c == '\t'

def skipBreaks : (fuel : Nat) → List Char → List Char
  | 0, s => s
  | fuel + 1, s =>
    let r := s.dropWhile isSpace
    match afterBreak? r with
    | some r => skipBreaks fuel r
    | none => r

def readLines? (quote : Char) : (fuel : Nat) → List Char → Option (List Char × List Char)
  | 0, _ => none
  | fuel + 1, s =>
    let quotes := (s.takeWhile (· == quote)).length
    if 3 ≤ quotes then
      if 5 < quotes then none else some (List.replicate (quotes - 3) quote, s.drop quotes)
    else
      match s with
      | [] => none
      | c :: r =>
        match afterBreak? s with
        | some r => do
          let (t, r) ← readLines? quote fuel r
          some ('\n' :: t, r)
        | none =>
          if c = '\\' ∧ quote = '"' then
            match afterBreak? (r.dropWhile isSpace) with
            | some r' => readLines? quote fuel (skipBreaks r'.length r')
            | none => do
              let (d, r) ← readEscape? r
              let (t, r) ← readLines? quote fuel r
              some (d :: t, r)
          else if isControl c then none
          else do
            let (t, r) ← readLines? quote fuel r
            some (c :: t, r)

def readQuoted? (quote : Char) (s : List Char) : Option (List Char × List Char) :=
  match s with
  | a :: b :: r =>
    if a = quote ∧ b = quote then
      let r := (afterBreak? r).getD r
      readLines? quote (r.length + 1) r
    else readLine? quote (s.length + 1) s
  | s => readLine? quote (s.length + 1) s

end Stencil.Toml
