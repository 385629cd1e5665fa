import Jukebox.Text.Blank
import Jukebox.Text.Lowercase

/-!
# Normalized names

Rooms are searched by a plain form of their display names: small letters, digits and hyphens.
Blanks and underscores become hyphens, all other characters are left out.
-/

namespace Jukebox

/-- The characters a normalized name is made of. -/
def isNameChar (c : Char) : Bool :=
  ('a' ≤ c && c ≤ 'z') || c.isDigit || c == '-'

/-- Spaces and underscores separate words just as a hyphen does. -/
def hyphenate (c : Char) : Char :=
  if c = ' ' ∨ c = '_' then '-' else c

def normalizedChars (name : List Char) : List Char :=
  ((Text.lower (Text.trim name)).map hyphenate).filter isNameChar

/-- The form of a name that searches compare. -/
def normalizeName (name : String) : String :=
  String.ofList (normalizedChars name.toList)

/-- Whether a text occurs in another one as a contiguous piece. -/
def occursIn {α : Type} [BEq α] (piece : List α) : List α → Bool
  | [] => piece.isEmpty
  | text@(_ :: rest) => piece.isPrefixOf text || occursIn piece rest

end Jukebox
