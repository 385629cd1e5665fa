/-!
# Patterns

How the database compares a text with a pattern. A percent sign stands for any text, an
underscore for any one character, and a letter for itself in either ASCII case.
-/

namespace Jukebox
namespace Store

/-- Whether some suffix of a text is accepted. -/
def anySuffix (accepts : List Char → Bool) : List Char → Bool
  | [] => accepts []
  | text@(_ :: rest) => accepts text || anySuffix accepts rest

/-- Whether a text matches a pattern. -/
def like : (pattern : List Char) → List Char → Bool
  | [], text => text.isEmpty
  | sign :: pattern, text =>
    if sign = '%' then anySuffix (like pattern) text
    else
      match text with
      | [] => false
      | c :: rest => (sign = '_' || sign.toLower = c.toLower) && like pattern rest

theorem like_percent (pattern text : List Char) :
    like ('%' :: pattern) text = anySuffix (like pattern) text := by
  cases text <;> rfl

/-- The pattern of the texts that contain a piece without signs in it. -/
def containing (piece : List Char) : List Char :=
  '%' :: (piece ++ ['%'])

end Store
end Jukebox
