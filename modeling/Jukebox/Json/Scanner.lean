import Jukebox.Json.Token

/-!
# From characters to tokens

The scanner reads one character at a time. It stands between two tokens, inside a bare word (a
numeral or one of the three names), or inside a string literal. Escapes are read as units of
sixteen bits, and two halves of a surrogate pair that follow each other make one character.
-/

namespace Jukebox
namespace Json

/-- A part of a string literal: a character, or half of a surrogate pair. -/
inductive Piece
  | char (c : Char)
  | half (unit : Nat)
  deriving DecidableEq

/-- The piece that an escaped unit of sixteen bits stands for. -/
def Piece.ofUnit (unit : Nat) : Piece :=
  if 0xD800 ≤ unit ∧ unit < 0xE000 then .half unit else .char (Char.ofNat unit)

/-- Joins the halves of surrogate pairs; a half that stands alone makes no text. -/
def joinPieces : List Piece → Option (List Char)
  | [] => some []
  | .char c :: rest => (joinPieces rest).map (c :: ·)
  | .half high :: .half low :: rest =>
    if high < 0xDC00 ∧ 0xDC00 ≤ low then
      (joinPieces rest).map
        (Char.ofNat (0x10000 + (high - 0xD800) * 0x400 + (low - 0xDC00)) :: ·)
    else none
  | .half _ :: _ => none

/-- Where the scanner stands. What it has read of a token comes latest first. -/
inductive Scan
  | between
  | bare (seen : List Char)
  | text (done : List Piece)
  /-- Behind a backslash. -/
  | escape (done : List Piece)
  /-- Inside the four digits of an escaped unit. -/
  | unit (done : List Piece) (missing : Nat) (value : Nat)
  deriving DecidableEq

structure Scanner where
  /-- The tokens so far, latest first. -/
  tokens : List Token
  state : Scan
  deriving DecidableEq

namespace Scanner

def start : Scanner :=
  ⟨[], .between⟩

def isSpace (c : Char) : Bool :=
  c == ' ' || c == '\n' || c == '\t' || c == '\r'

/-- The characters of bare words. -/
def isBare (c : Char) : Bool :=
  c.isAlphanum || c == '-' || c == '+' || c == '.'

def punctuation? (c : Char) : Option Token :=
  if c = '[' then some .beginArray
  else if c = ']' then some .endArray
  else if c = '{' then some .beginObject
  else if c = '}' then some .endObject
  else if c = ',' then some .comma
  else if c = ':' then some .colon
  else none

/-- The token that a complete bare word stands for. -/
def bareToken? (word : List Char) : Option Token :=
  if word = ['n', 'u', 'l', 'l'] then some .null
  else if word = ['t', 'r', 'u', 'e'] then some (.bool true)
  else if word = ['f', 'a', 'l', 's', 'e'] then some (.bool false)
  else (Numeral.ofChars? word).map .number

/-- The character that a short escape stands for. -/
def unescape? (c : Char) : Option Char :=
  if c = '"' ∨ c = '\\' ∨ c = '/' then some c
  else if c = 'b' then some '\x08'
  else if c = 'f' then some '\x0c'
  else if c = 'n' then some '\n'
  else if c = 'r' then some '\r'
  else if c = 't' then some '\t'
  else none

def hexValue? (c : Char) : Option Nat :=
  if '0' ≤ c ∧ c ≤ '9' then some (c.toNat - '0'.toNat)
  else if 'a' ≤ c ∧ c ≤ 'f' then some (c.toNat - 'a'.toNat + 10)
  else if 'A' ≤ c ∧ c ≤ 'F' then some (c.toNat - 'A'.toNat + 10)
  else none

/-- Reads a character between two tokens. -/
def startToken (tokens : List Token) (c : Char) : Option Scanner :=
  if isSpace c then some ⟨tokens, .between⟩
  else if c = '"' then some ⟨tokens, .text []⟩
  else if isBare c then some ⟨tokens, .bare [c]⟩
  else (punctuation? c).map fun token => ⟨token :: tokens, .between⟩

/-- Reads one character. -/
def step (s : Scanner) (c : Char) : Option Scanner :=
  match s.state with
  | .between => startToken s.tokens c
  | .bare seen =>
    if isBare c then some { s with state := .bare (c :: seen) }
    else (bareToken? seen.reverse).bind fun token => startToken (token :: s.tokens) c
  | .text done =>
    if c = '"' then
      some ⟨.string ((joinPieces done.reverse).map String.ofList) :: s.tokens, .between⟩
    else if c = '\\' then some { s with state := .escape done }
    else if c.toNat < 0x20 then none
    else some { s with state := .text (.char c :: done) }
  | .escape done =>
    if c = 'u' then some { s with state := .unit done 3 0 }
    else (unescape? c).map fun plain => { s with state := .text (.char plain :: done) }
  | .unit done missing value =>
    (hexValue? c).map fun digit =>
      match missing with
      | 0 => { s with state := .text (.ofUnit (value * 16 + digit) :: done) }
      | missing + 1 => { s with state := .unit done missing (value * 16 + digit) }

/-- The tokens when the text ends here. -/
def finish (s : Scanner) : Option (List Token) :=
  match s.state with
  | .between => some s.tokens.reverse
  | .bare seen => (bareToken? seen.reverse).map fun token => (token :: s.tokens).reverse
  | _ => none

end Scanner

/-- The tokens of a text. -/
def scan (cs : List Char) : Option (List Token) :=
  (cs.foldlM Scanner.step Scanner.start).bind Scanner.finish

end Json
end Jukebox
